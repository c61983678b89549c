import Prewarm.Proofs.Registry.Protocol
import Prewarm.Text.Numeral

/-!
# Which registries are reached without encryption

What is said to a registry, logins and tokens among it, may go unencrypted only to this machine and
to local names: `isLocalName` tells these by the host without its port. A host is looked at in a
simpler way. The text before its first colon is compared with the local host, with the beginning
`127.` and with the end `.local`, so that every host that begins with `127.` is reached without
encryption, an address or not, and no address in brackets is, since its own colons cut it short
(`plain_exactly`). So a login is sent in plain to a host of the name `127.example.com`, and the
loopback address `[::1]` is not reached in plain (`plain_to_stranger`).
-/

namespace Prewarm.Registry

/-! ## Local hosts -/

/-- The host of a registry without its port. An address in brackets has colons of its own. -/
def hostName (host : List Char) : List Char :=
  if host.head? = some '[' then
    (Text.cutFirst ']' host).elim host (fun p => p.1 ++ [']'])
  else host.takeWhile (· ≠ ':')

/-- Whether a text is a number up to 255 in decimal, without zeros before it. -/
def isOctet (s : List Char) : Bool :=
  s ≠ [] && s.all Char.isDigit && Text.digitsValue s < 256 &&
    (s.length = 1 || s.head? ≠ some '0')

/-- Whether a text is an address of the network 127.0.0.0/8: four numbers, the first of them 127. -/
def isLoopbackAddress (s : List Char) : Bool :=
  match Text.parts '.' s with
  | [a, b, c, d] => a == "127".toList && isOctet b && isOctet c && isOctet d
  | _ => false

/-- Whether a host is this machine or has a local name, whatever its port. -/
def isLocalName (host : List Char) : Bool :=
  let name := hostName host
  name == "localhost".toList || isLoopbackAddress name || name == "[::1]".toList ||
    ".local".toList.isSuffixOf name

section
variable {p s : List Char}

/-- A beginning without the separator is one of the text before the first separator. -/
theorem prefix_takeWhile_iff {q : Char → Bool} (h : ∀ c ∈ p, q c = true) :
    p <+: s.takeWhile q ↔ p <+: s := by
  constructor
  · exact fun hp => hp.trans (List.takeWhile_prefix q)
  · rintro ⟨r, rfl⟩
    rw [List.takeWhile_append_of_pos h]
    exact List.prefix_append p _

/-- The addresses of the network begin with its number. -/
theorem prefix_of_isLoopbackAddress (h : isLoopbackAddress s = true) : "127.".toList <+: s := by
  unfold isLoopbackAddress at h
  split at h
  · next a b c d hparts =>
    have ha : a = "127".toList := by
      simp only [Bool.and_eq_true, beq_iff_eq] at h
      exact h.1.1.1
    have hs := Text.join_parts '.' s
    rw [hparts, ha] at hs
    exact hs ▸ ⟨_, rfl⟩
  · cases h

/-- A text that begins with no bracket is a local name if the text before its first colon is one. -/
theorem isLocalName_iff (h : s.head? ≠ some '[') : isLocalName s = true ↔
    s.takeWhile (· ≠ ':') = "localhost".toList ∨ isLoopbackAddress (s.takeWhile (· ≠ ':')) = true ∨
      ".local".toList <:+ s.takeWhile (· ≠ ':') := by
  have hname : s.takeWhile (· ≠ ':') ≠ "[::1]".toList := by
    intro hname
    obtain ⟨r, hr⟩ := hname ▸ List.takeWhile_prefix (l := s) (· ≠ ':')
    exact h (hr ▸ rfl)
  unfold isLocalName hostName
  rw [if_neg h]
  simp only [Bool.or_eq_true, beq_iff_eq, List.isSuffixOf_iff_suffix, hname, or_false, or_assoc]

/-- The hosts that are reached without encryption: the local ones of those that begin with no
bracket, those that begin like an address of the loopback network, and no address in brackets but
one whose beginning ends like a local name. -/
theorem isLocal_iff (host : String) : isLocal host = true ↔
    (host.toList.head? ≠ some '[' ∧ isLocalName host.toList = true) ∨
      "127.".toList <+: host.toList ∨
      (host.toList.head? = some '[' ∧
        ".local".toList <:+ host.toList.takeWhile (· ≠ ':')) := by
  have hnet : ∀ c ∈ "127.".toList, decide (c ≠ ':') = true := List.all_eq_true.1 (by decide)
  have hlook : isLocal host = true ↔ host.toList.takeWhile (· ≠ ':') = "localhost".toList ∨
      "127.".toList <+: host.toList ∨ ".local".toList <:+ host.toList.takeWhile (· ≠ ':') := by
    unfold isLocal
    simp only [Bool.or_eq_true, beq_iff_eq, List.isPrefixOf_iff_prefix,
      List.isSuffixOf_iff_suffix, or_assoc]
    rw [prefix_takeWhile_iff hnet]
  rw [hlook]
  generalize host.toList = s
  by_cases hbracket : s.head? = some '['
  · obtain ⟨s, rfl⟩ := List.head?_eq_some_iff.1 hbracket
    have hname : ('[' :: s).takeWhile (· ≠ ':') ≠ "localhost".toList := by
      rw [List.takeWhile_cons_of_pos (by decide)]
      exact fun h => nomatch (List.cons.inj h).1
    simp only [hname, hbracket, false_or, ne_eq, not_true_eq_false, false_and, true_and]
  · rw [isLocalName_iff hbracket]
    constructor
    · rintro (hname | hnet | hend)
      · exact .inl ⟨hbracket, .inl hname⟩
      · exact .inr (.inl hnet)
      · exact .inl ⟨hbracket, .inr (.inr hend)⟩
    · rintro (⟨-, hname | haddr | hend⟩ | hnet | ⟨hb, -⟩)
      · exact .inl hname
      · exact .inr (.inl ((prefix_takeWhile_iff hnet).1 (prefix_of_isLoopbackAddress haddr)))
      · exact .inr (.inr hend)
      · exact .inr (.inl hnet)
      · exact absurd hb hbracket

end

/-! ## Requests -/

/-- Where the manifest of a tag is, without the scheme. -/
def schemeless (t : TagReference) : String :=
  "://" ++ t.registryHost ++ "/v2/" ++ t.repositoryPath ++ "/manifests/" ++ t.tag

theorem manifestUrl_eq (t : TagReference) :
    manifestUrl t = (if isLocal t.registryHost then "http" else "https") ++ schemeless t := by
  simp only [manifestUrl, schemeless, String.append_assoc]

theorem plain_ne (t : TagReference) : "http" ++ schemeless t ≠ "https" ++ schemeless t := by
  intro h
  have hchars := congrArg String.toList h
  simp [schemeless] at hchars

/-- A registry that replies nothing was asked for the head of the manifest. -/
theorem unanswered_transcript {t : TagReference} {logins : Logins} {login : Option Login}
    (h : logins.get? t.registryHost = login) :
    (resolve t logins).run.Transcript [⟨headRequest t (login.map .basic), none⟩]
      (.error .transport) := by
  rw [resolve_run, askHead_run, h]
  exact Dialogue.transcript_ask_iff.2 ⟨none, [], rfl, .done _⟩

/-- **Whom requests reach without encryption.** Whatever is said to find out the digest of a tag,
each request for its manifest, and with it the login or the token, goes to the registry with or
without encryption. It goes without to a registry that is local, has no address in brackets, and to
every host that begins like an address of the loopback network. To an address in brackets it goes
with encryption, loopback or not, unless the text before its first colon ends like a local name. -/
theorem plain_exactly {t : TagReference} {logins : Logins} {es : List Exchange}
    {r : Except ResolveError String} (h : (resolve t logins).run.Transcript es r) :
    ∀ x ∈ es, x.1.target ≠ .token →
      (x.1.url = "http" ++ schemeless t ∨ x.1.url = "https" ++ schemeless t) ∧
      (x.1.url = "http" ++ schemeless t ↔
        (t.registryHost.toList.head? ≠ some '[' ∧ isLocalName t.registryHost.toList = true) ∨
          "127.".toList <+: t.registryHost.toList ∨
          (t.registryHost.toList.head? = some '[' ∧
            ".local".toList <:+ t.registryHost.toList.takeWhile (· ≠ ':'))) := by
  intro x hx hq
  rw [(resolve_transcript h).1.url_eq hx hq, manifestUrl_eq, ← isLocal_iff]
  by_cases hlocal : isLocal t.registryHost = true
  · rw [if_pos hlocal]
    exact ⟨.inl rfl, iff_of_true rfl hlocal⟩
  · rw [if_neg hlocal]
    exact ⟨.inr rfl, iff_of_false (plain_ne t).symm hlocal⟩

/-- A registry on this machine gets a login in plain. -/
theorem plain_exactly_localhost :
    let login : Login := ⟨"robot", "hunter2"⟩
    let t : TagReference := ⟨some "localhost:5000", "app", "v1"⟩
    let x : Exchange := ⟨headRequest t (some (.basic login)), none⟩
    TagReference.parse "localhost:5000/app:v1" = some t ∧
      (resolve t (Logins.anonymous.insert "localhost:5000" login)).run.Transcript [x]
        (.error .transport) ∧
      x.1.url = "http://localhost:5000/v2/app/manifests/v1" := by
  intro login t x
  have hlogin : (Logins.anonymous.insert "localhost:5000" login).get? t.registryHost =
      some login := by decide +kernel
  have h : (resolve t (Logins.anonymous.insert "localhost:5000" login)).run.Transcript [x]
      (.error .transport) :=
    unanswered_transcript hlogin
  have hplain := ((plain_exactly h) x (List.mem_singleton_self x) (by decide)).2.2
    (.inl (by decide +kernel))
  exact ⟨by decide +kernel, h, hplain.trans (by decide +kernel)⟩

/-- A host that is not local and begins like a loopback address gets a login in plain, and a
registry at a loopback address in brackets is not reached in plain. -/
theorem plain_to_stranger :
    let login : Login := ⟨"robot", "hunter2"⟩
    let t : TagReference := ⟨some "127.example.com", "app", "v1"⟩
    let x : Exchange := ⟨headRequest t (some (.basic login)), none⟩
    let loopback : TagReference := ⟨some "[::1]:5000", "app", "v1"⟩
    (TagReference.parse "127.example.com/app:v1" = some t ∧
      isLocalName t.registryHost.toList = false ∧
      (resolve t (Logins.anonymous.insert "127.example.com" login)).run.Transcript [x]
        (.error .transport) ∧
      x.1.url = "http://127.example.com/v2/app/manifests/v1") ∧
    TagReference.parse "[::1]:5000/app:v1" = some loopback ∧
      isLocalName loopback.registryHost.toList = true ∧
      (headRequest loopback none).url = "https://[::1]:5000/v2/app/manifests/v1" := by
  intro login t x loopback
  have hlogin : (Logins.anonymous.insert "127.example.com" login).get? t.registryHost =
      some login := by decide +kernel
  have h : (resolve t (Logins.anonymous.insert "127.example.com" login)).run.Transcript [x]
      (.error .transport) :=
    unanswered_transcript hlogin
  exact ⟨⟨by decide +kernel, by decide +kernel, h, by decide +kernel⟩, by decide +kernel,
    by decide +kernel, by decide +kernel⟩

end Prewarm.Registry

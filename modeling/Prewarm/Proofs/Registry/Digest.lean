import Prewarm.Proofs.Image.RoundTrip
import Prewarm.Proofs.Reconcile.Exchanges
import Prewarm.Proofs.Registry.Protocol

/-!
# Which digests images are pinned to

A digest is an algorithm and a value in base sixteen (`isDigest`). What is taken of a manifest is
one, but what a registry tells in a header is passed on as it is, so an image is pinned to a digest
if its registry tells digests or nothing (`pinned_to_digest`). A registry that tells an empty text
leaves an image that no node can pull in a child, and as long as the child is there no other one is
made (`pinned_to_nothing`).
-/

namespace Prewarm.Registry

/-! ## Digests -/

/-- Whether a character can stand in the name of an algorithm. -/
def isAlgorithmChar (c : Char) : Bool := c.isLower || c.isDigit || "+._-".toList.contains c

/-- Whether a character is a digit in base sixteen. -/
def isHexDigit (c : Char) : Bool :=
  c.isDigit || ('a' ≤ c && c ≤ 'f') || ('A' ≤ c && c ≤ 'F')

/-- Whether a text is a digest: the name of an algorithm, a colon, and digits in base sixteen. -/
def isDigest (s : String) : Bool :=
  match Text.cutFirst ':' s.toList with
  | some (algorithm, value) =>
    algorithm ≠ [] && algorithm.all isAlgorithmChar && value ≠ [] && value.all isHexDigit
  | none => false

/-- What is taken of a manifest is `sha256:` and 64 digits in lower case. -/
theorem digestOf_eq (body : Bytes) : ∃ value : List Char,
    digestOf body = "sha256:" ++ String.ofList value ∧ value.length = 64 ∧
      ∀ c ∈ value, c ∈ "0123456789abcdef".toList :=
  ⟨Sha256.hex (Sha256.digest body), rfl, by rw [Sha256.length_hex, Sha256.length_digest],
    fun _ => Sha256.mem_of_mem_hex⟩

@[simp] theorem isDigest_digestOf (body : Bytes) : isDigest (digestOf body) = true := by
  obtain ⟨value, hvalue, hlen, hhex⟩ := digestOf_eq body
  have hall : ∀ c ∈ "0123456789abcdef".toList, isHexDigit c = true :=
    List.all_eq_true.1 (by decide)
  have hcut : Text.cutFirst ':' (digestOf body).toList = some ("sha256".toList, value) := by
    have htext : (String.ofList value).toList = value := String.toList_ofList
    rw [hvalue, String.toList_append, htext]
    rfl
  have hne : value ≠ [] := by
    rintro rfl
    cases hlen
  have hname : ("sha256".toList ≠ [] && "sha256".toList.all isAlgorithmChar) = true := by decide
  unfold isDigest
  rw [hcut]
  dsimp only
  rw [hname, Bool.true_and, Bool.and_eq_true, List.all_eq_true]
  exact ⟨decide_eq_true hne, fun c hc => hall c (hhex c hc)⟩

/-! ## What registries tell -/

/-- The last thing that was said is a head that tells a text for a digest. -/
def Told (t : TagReference) (es : List Exchange) (text : String) : Prop :=
  ∃ es' a reply, es = es' ++ [⟨headRequest t a, some reply⟩] ∧
    Status.isSuccess reply.code = true ∧ reply.digest? = some text

/-- The registry of a tag has told a digest or nothing at last. -/
def Honest (t : TagReference) (es : List Exchange) : Prop :=
  ∀ text, Told t es text → isDigest text = true

/-- The digests in what was said in work on a key are what honest registries have for them. -/
def Backed (es : List Reconcile.Exchange) : Prop :=
  ∀ t logins digest, ⟨.digest t logins, .ok digest⟩ ∈ es →
    ∃ said, (resolve t logins).run.Transcript said (.ok digest) ∧ Honest t said

section
variable {t : TagReference} {logins : Logins} {login : Option Login} {es : List Exchange}
  {digest text : String}

theorem Headed.last {a : Option Authorization} {reply : Reply} (h : Headed t login es a reply) :
    ∃ es', es = es' ++ [⟨headRequest t a, some reply⟩] := by
  cases h with
  | once => exact ⟨[], rfl⟩
  | @again first _ c es a =>
    exact ⟨⟨headRequest t (login.map .basic), some first⟩ :: es, rfl⟩

/-- A digest is told, or it is taken of the manifest, which is asked for last. -/
theorem Resolved.told_or_taken (h : Resolved t login es digest) :
    Told t es digest ∨ ∃ es' a got, es = es' ++ [⟨manifestRequest t a, some got⟩] ∧
      digest = digestOf got.body := by
  cases h with
  | told hh hcode hdigest =>
    obtain ⟨es', rfl⟩ := hh.last
    exact .inl ⟨es', _, _, rfl, hcode, hdigest⟩
  | @taken es a _ got => exact .inr ⟨es, a, got, rfl, rfl⟩

/-- If the last head tells a text, that is the digest. -/
theorem Told.eq (h : Told t es text) (hr : Resolved t login es digest) : text = digest := by
  obtain ⟨es₁, a₁, reply₁, hes₁, -, htext⟩ := h
  rcases hr.told_or_taken with ⟨es₂, a₂, reply₂, hes₂, -, hdigest⟩ | ⟨es₂, a₂, got, hes₂, -⟩
  · have hlast := (List.append_inj' (hes₁.symm.trans hes₂) rfl).2
    cases hlast
    exact Option.some.inj (htext.symm.trans hdigest)
  · have hlast := (List.append_inj' (hes₁.symm.trans hes₂) rfl).2
    cases hlast

/-- What a registry has is a digest just if it is honest. -/
theorem isDigest_iff_honest (h : (resolve t logins).run.Transcript es (.ok digest)) :
    isDigest digest = true ↔ Honest t es := by
  have hresolved := (resolve_transcript h).2 digest rfl
  constructor
  · exact fun hdigest text htold => htold.eq hresolved ▸ hdigest
  · intro hhonest
    rcases hresolved.told_or_taken with htold | ⟨-, -, got, -, rfl⟩
    · exact hhonest digest htold
    · exact isDigest_digestOf got.body

/-- An image by a tag is pinned to a digest if the registries are honest. -/
theorem Backed.pin {ns image r : String} {secrets : List String} {es : List Reconcile.Exchange}
    (h : Backed es) (ht : TagReference.parse image = some t)
    (hr : (Reconcile.sources.pin ns image secrets).Transcript es (.ok r)) :
    ∃ digest, isDigest digest = true ∧ r = t.context ++ "@" ++ digest := by
  obtain ⟨es', ls, digest, rfl, hpinned⟩ := PinSources.pin_of_parse_some ht hr
  obtain ⟨said, hsaid, hhonest⟩ := h t ls digest List.mem_concat_self
  exact ⟨digest, (isDigest_iff_honest hsaid).2 hhonest, hpinned⟩

end

/-- **An image is pinned to what its registry tells.** What a registry has for a tag is the text
that the last head tells, whatever text that is, or else `sha256:` and 64 digits in lower case. So
it is a digest if and only if the registry tells a digest or nothing at last. If registries do, an
image by the tag is pinned to its context with a digest, and that is the image of the child that
work on the key of a warm image creates. -/
theorem pinned_to_digest (t : TagReference) :
    (∀ logins es digest, (resolve t logins).run.Transcript es (.ok digest) →
      (isDigest digest = true ↔ Honest t es) ∧
      (Told t es digest ∨ ∃ value : List Char, digest = "sha256:" ++ String.ofList value ∧
        value.length = 64 ∧ ∀ c ∈ value, c ∈ "0123456789abcdef".toList)) ∧
    (∀ (logins : Logins) reply text, Status.isSuccess reply.code = true →
      reply.digest? = some text →
      (resolve t logins).run.Transcript
        [⟨headRequest t ((logins.get? t.registryHost).map .basic), some reply⟩] (.ok text)) ∧
    (∀ ns image secrets es r, TagReference.parse image = some t →
      (Reconcile.sources.pin ns image secrets).Transcript es (.ok r) → Backed es →
      ∃ digest, isDigest digest = true ∧ r = t.context ++ "@" ++ digest) ∧
    ∀ (c : Reconcile.Context) (k : Key) ns name wi es r, k.split = .ok (ns, name) →
      c.warmImages.get? ns name = some wi → TagReference.parse wi.image = some t →
      (Reconcile.dialogue c k).Transcript es r → Backed es →
      ∀ ns' d a, ⟨.create ns' d, a⟩ ∈ es → ∃ digest owner, isDigest digest = true ∧
        d = .ofWarmImage wi (t.context ++ "@" ++ digest) c.sleeperImage owner := by
  refine ⟨fun logins es digest h => ⟨isDigest_iff_honest h, ?_⟩,
    fun logins reply text hcode htext => ?_,
    fun ns image secrets es r ht h hbacked => hbacked.pin ht h, ?_⟩
  · rcases ((resolve_transcript h).2 digest rfl).told_or_taken with htold | ⟨-, -, got, -, rfl⟩
    · exact .inl htold
    · exact .inr (digestOf_eq got.body)
  · refine (Resolved.told (.once fun hrefused => ?_) hcode htext).transcript
    rw [hrefused] at hcode
    revert hcode
    decide
  · intro c k ns name wi es r hk hwi ht h hbacked ns' d a hx
    obtain ⟨-, es', image, owner, hsub, hpin, rfl⟩ :=
      (Reconcile.dialogue_transcript hk hwi h).created_pinned hx
    have hbacked' : Backed es' := fun t ls digest hmem => hbacked t ls digest (hsub hmem)
    obtain ⟨digest, hdigest, rfl⟩ := hbacked'.pin ht hpin
    exact ⟨digest, owner, hdigest, rfl⟩

/-! ## A registry that tells nothing -/

/-- A warm image by a tag in a registry on this machine. -/
def localImage : WarmImage where
  metadata :=
    { name := some "a", ns := some "ns", uid := some "u", resourceVersion := some "1" }
  image := "localhost:5000/app"

/-- The tag that the warm image is of. -/
def localTag : TagReference := ⟨some "localhost:5000", "app", "latest"⟩

/-- The warm image, and a store of daemon sets. -/
def localContext (daemonSets : Store DaemonSet) : Reconcile.Context :=
  ⟨.forController, { items := .ofList [("ns/a", localImage)] }, daemonSets, "sleeper"⟩

/-- The child of the warm image with an image. -/
def localChild (image : String) : DaemonSet :=
  .ofWarmImage localImage image "sleeper"
    { apiVersion := ObjectType.warmImage.kind.apiVersion
      kind := "WarmImage"
      name := "a"
      uid := "u"
      controller := some true
      blockOwnerDeletion := some true }

/-- The child as the cluster tells of it. -/
def localShown (image : String) : DaemonSet :=
  { localChild image with metadata := { (localChild image).metadata with name := some "a0" } }

/-- What is said in work on the warm image if there is no child and its registry has a digest. -/
def localTalk (digest : String) : List Reconcile.Exchange := [
  ⟨.isPending "ns/a" "1", false⟩,
  ⟨.digest localTag .anonymous, .ok digest⟩,
  ⟨.create "ns" (localChild ("localhost:5000/app@" ++ digest)), .ok ()⟩,
  ⟨.expect "ns/a" "1", ()⟩,
  ⟨.publish ⟨some "mattmoor.io/v2", some "WarmImage", some "a", some "ns", some "u", some "1"⟩
    .synced, .ok ()⟩]

/-- The warm image is in its store. -/
theorem get?_localContext (daemonSets : Store DaemonSet) :
    (localContext daemonSets).warmImages.get? "ns" "a" = some localImage := rfl

theorem localTalk_transcript (digest : String) :
    (Reconcile.dialogue (localContext {}) "ns/a").Transcript (localTalk digest) (.ok ()) := by
  have hparse : TagReference.parse localImage.image = some localTag := by decide
  have hk : Key.split "ns/a" = .ok ("ns", "a") := rfl
  rw [Reconcile.dialogue_of_childless hk (get?_localContext {}) rfl]
  refine Dialogue.transcript_ask_iff.2 ⟨false, _, rfl, ?_⟩
  refine Dialogue.transcript_bind_iff.2
    ⟨((localTalk digest).drop 1).take 2, .ok (), (localTalk digest).drop 3, rfl, ?_, ?_⟩
  · rw [Reconcile.createChild_run]
    refine Dialogue.transcript_bind_iff.2
      ⟨[⟨.digest localTag .anonymous, .ok digest⟩], .ok (localTag.withDigest digest), _, rfl,
        ?_, ?_⟩
    · unfold PinSources.pin
      rw [hparse]
      exact Dialogue.transcript_ask_iff.2 ⟨Except.ok digest, [], rfl, .done _⟩
    · exact Dialogue.transcript_ask_iff.2 ⟨Except.ok (), [], rfl, .done _⟩
  · refine Dialogue.transcript_ask_iff.2 ⟨(), _, rfl, ?_⟩
    rw [Reconcile.settle_run]
    exact Dialogue.transcript_ask_iff.2 ⟨Except.ok (), [], rfl, .done _⟩

theorem create_mem_localTalk (digest : String) :
    ⟨.create "ns" (localChild ("localhost:5000/app@" ++ digest)), .ok ()⟩ ∈ localTalk digest :=
  .tail _ (.tail _ (.head _))

/-- An honest registry of a warm image has its child pinned. -/
theorem pinned_to_digest_local :
    let told : Reply := ⟨200, [("Docker-Content-Digest", .ofString "sha256:abcd")], []⟩
    (resolve localTag .anonymous).run.Transcript [⟨headRequest localTag none, some told⟩]
        (.ok "sha256:abcd") ∧
      (Reconcile.dialogue (localContext {}) "ns/a").Transcript (localTalk "sha256:abcd") (.ok ()) ∧
      ∃ digest owner, isDigest digest = true ∧ localChild "localhost:5000/app@sha256:abcd" =
        .ofWarmImage localImage (localTag.context ++ "@" ++ digest) "sleeper" owner := by
  intro told
  obtain ⟨hasked, htold, -, hwork⟩ := pinned_to_digest localTag
  have h : (resolve localTag .anonymous).run.Transcript [⟨headRequest localTag none, some told⟩]
      (.ok "sha256:abcd") := htold .anonymous told "sha256:abcd" rfl (by decide +kernel)
  have hhonest := (hasked .anonymous _ _ h).1.1 (by decide)
  have hbacked : Backed (localTalk "sha256:abcd") := by
    intro t logins digest hmem
    simp only [localTalk, List.mem_cons, List.not_mem_nil, or_false] at hmem
    obtain h | h | h | h | h := hmem
    all_goals cases h
    exact ⟨_, h, hhonest⟩
  have hparse : TagReference.parse localImage.image = some localTag := by decide
  have htalk := localTalk_transcript "sha256:abcd"
  exact ⟨h, htalk, hwork (localContext {}) "ns/a" "ns" "a" localImage _ _ rfl
    (get?_localContext {}) hparse htalk hbacked "ns" _ (.ok ()) (create_mem_localTalk _)⟩

/-- A registry that tells an empty text for a digest leaves an image without one in a child, and
once the child is in the store no other one is made. -/
theorem pinned_to_nothing :
    let told : Reply := ⟨200, [("Docker-Content-Digest", [])], []⟩
    let child := localChild "localhost:5000/app@"
    let shown : DaemonSet := localShown "localhost:5000/app@"
    (resolve localTag .anonymous).run.Transcript [⟨headRequest localTag none, some told⟩] (.ok "") ∧
      isDigest "" = false ∧
      (Reconcile.dialogue (localContext {}) "ns/a").Transcript (localTalk "") (.ok ()) ∧
      ⟨.create "ns" child, .ok ()⟩ ∈ localTalk "" ∧
      ∀ es r, (Reconcile.dialogue (localContext (({} : Store DaemonSet).upsert shown).1)
        "ns/a").Transcript es r →
        ∀ ns d a, ⟨.create ns d, a⟩ ∉ es := by
  intro told child shown
  have hdigest : told.digest? = some "" := by decide +kernel
  have hasked : Resolved localTag (Logins.anonymous.get? localTag.registryHost)
      [⟨headRequest localTag none, some told⟩] "" := .told (.once (by decide)) rfl hdigest
  refine ⟨hasked.transcript, by decide, localTalk_transcript "", create_mem_localTalk "", ?_⟩
  intro es r h ns d a hx
  have hk : Key.split "ns/a" = .ok ("ns", "a") := rfl
  have hpresent : (Reconcile.childrenOf (localContext (({} : Store DaemonSet).upsert shown).1)
      localImage "ns").1.isEmpty = false := rfl
  cases Reconcile.dialogue_transcript hk (get?_localContext _) h with
  | present _ hend => exact hend.not_created ((List.mem_cons.1 hx).resolve_left nofun)
  | expected hempty | failed hempty | made hempty =>
    rw [hpresent] at hempty
    cases hempty

end Prewarm.Registry

import Prewarm.Proofs.Image.Grammar
import Prewarm.Registry.Login

/-!
# One registry, many spellings

A registry goes by its host, and the default one by three hosts; a login may be filed under any of
them with a scheme before it and a path after it (`Spells`). The host of an image is what stands
before its first slash, whatever else is in it, so it may look like a scheme itself: `https:/app` is
an image in the registry `https:`. It has no slash, though, and a path does not begin with two, so
no scheme is found in a host (`not_scheme_prefix`), the host alone is left of every spelling
(`registryKey_of_spells`), and a login is found under the host of an image however its registry was
spelt (`found_however_spelt`).
-/

namespace Prewarm.Logins

/-- The hosts that the default registry goes by. -/
def defaultHosts : List String := ["docker.io", "registry-1.docker.io", "index.docker.io"]

/-- Whether a text names the registry with a host: it is the host, or one of the default hosts if
the host is another, with or without a scheme before it and a path after it. -/
inductive Spells (host : String) : String → Prop
  | intro {scheme name path : String} :
      scheme = "" ∨ scheme = "https://" ∨ scheme = "http://" →
      name = host ∨ (name ∈ defaultHosts ∧ host ∈ defaultHosts) →
      path = "" ∨ (∃ rest : String, path = "/" ++ rest ∧ rest.toList.head? ≠ some '/') →
      Spells host (scheme ++ name ++ path)

section
variable {a name path : List Char} {host registry : String}

/-! ## Schemes and paths -/

theorem not_mem_takeWhile_slash (s : List Char) : '/' ∉ s.takeWhile (· ≠ '/') := by
  intro hmem
  have hslash := List.all_eq_true.1 List.all_takeWhile '/' hmem
  revert hslash
  decide

/-- A text without a slash, and a path after it. -/
structure IsHostWithPath (name path : List Char) : Prop where
  host : '/' ∉ name
  path : path = [] ∨ ∃ rest, path = '/' :: rest ∧ rest.head? ≠ some '/'

/-- No scheme is found in a host with a path: where the host ends there is one slash at most. -/
theorem IsHostWithPath.not_scheme_prefix (h : IsHostWithPath name path) (ha : '/' ∉ a) :
    ¬ a ++ ['/', '/'] <+: name ++ path := by
  rintro ⟨r, hr⟩
  rw [List.append_assoc] at hr
  rcases h.path with rfl | ⟨rest, rfl, hrest⟩
  · have hmem : '/' ∈ name ++ [] := hr ▸ List.mem_append_right a (.head _)
    exact h.host (by rwa [List.append_nil] at hmem)
  · have hname := congrArg (List.takeWhile (· ≠ '/')) hr
    rw [TagReference.takeWhile_append_slash h.host] at hname
    have ha' : List.takeWhile (· ≠ '/') (a ++ ('/' :: '/' :: r)) = a :=
      TagReference.takeWhile_append_slash ha _
    obtain rfl := ha'.symm.trans hname
    have htail := List.append_cancel_left hr
    cases htail
    exact hrest rfl

/-- What is left of a host with a path is the host. -/
theorem IsHostWithPath.takeWhile_eq (h : IsHostWithPath name path) :
    (name ++ path).takeWhile (· ≠ '/') = name := by
  rcases h.path with rfl | ⟨rest, rfl, -⟩
  · have hall : ∀ c ∈ name, decide (c ≠ '/') = true :=
      fun c hc => decide_eq_true fun e => h.host (e ▸ hc)
    rw [List.takeWhile_append_of_pos hall, List.takeWhile_nil, List.append_nil]
  · exact TagReference.takeWhile_append_slash h.host rest

/-- A host is filed as itself, whatever scheme stands before it and whatever path after it. -/
theorem registryKey_eq {scheme name path : String} (h : IsHostWithPath name.toList path.toList)
    (hscheme : scheme = "" ∨ scheme = "https://" ∨ scheme = "http://") :
    registryKey (scheme ++ name ++ path) = registryOfHost name.toList := by
  have hhttps : ¬ "https://".toList <+: name.toList ++ path.toList :=
    h.not_scheme_prefix (a := "https:".toList) (by decide)
  have hhttp : ¬ "http://".toList <+: name.toList ++ path.toList :=
    h.not_scheme_prefix (a := "http:".toList) (by decide)
  have hbare : Text.dropLeading "http://".toList (Text.dropLeading "https://".toList
      (scheme.toList ++ (name.toList ++ path.toList))) = name.toList ++ path.toList := by
    rcases hscheme with rfl | rfl | rfl
    · rw [String.toList_empty, List.nil_append, Text.dropLeading_of_not_prefix hhttps,
        Text.dropLeading_of_not_prefix hhttp]
    · rw [Text.dropLeading_append (by decide) hhttps, Text.dropLeading_of_not_prefix hhttp]
    · have hother : ¬ "https://".toList <+: "http://".toList ++ (name.toList ++ path.toList) := by
        simp
      rw [Text.dropLeading_of_not_prefix hother, Text.dropLeading_append (by decide) hhttp]
  unfold registryKey
  rw [String.toList_append, String.toList_append, List.append_assoc, hbare]
  exact congrArg registryOfHost h.takeWhile_eq

/-- A text without a slash is a host. -/
theorem registryKey_of_not_mem (h : '/' ∉ registry.toList) :
    registryKey registry = registryOfHost registry.toList := by
  have hkey := @registryKey_eq "" registry "" ⟨h, .inl rfl⟩ (.inl rfl)
  rwa [String.empty_append, String.append_empty] at hkey

/-! ## Hosts -/

theorem registryOfHost_toList (host : String) :
    registryOfHost host.toList = if host ∈ defaultHosts then "index.docker.io" else host := by
  unfold registryOfHost defaultHosts TagReference.defaultRegistry
  rw [String.ofList_toList]

/-- A registry is filed under a host. -/
theorem not_mem_registryOfHost (h : '/' ∉ name) : '/' ∉ (registryOfHost name).toList := by
  unfold registryOfHost
  split
  · decide
  · rwa [String.toList_ofList]

/-- A host is filed under the name that the registry with that host is filed under. -/
@[simp] theorem registryOfHost_registryOfHost (name : List Char) :
    registryOfHost (registryOfHost name).toList = registryOfHost name := by
  obtain ⟨host, rfl⟩ : ∃ host : String, name = host.toList :=
    ⟨String.ofList name, String.toList_ofList.symm⟩
  rw [registryOfHost_toList host]
  by_cases hhost : host ∈ defaultHosts
  · rw [if_pos hhost]
    decide
  · rw [if_neg hhost, registryOfHost_toList, if_neg hhost]

/-- The name that a registry is filed under is filed under itself. -/
@[simp] theorem registryKey_registryKey (registry : String) :
    registryKey (registryKey registry) = registryKey registry := by
  obtain ⟨name, hname, hkey⟩ : ∃ name, '/' ∉ name ∧ registryKey registry = registryOfHost name :=
    ⟨_, not_mem_takeWhile_slash _, rfl⟩
  rw [hkey, registryKey_of_not_mem (not_mem_registryOfHost hname), registryOfHost_registryOfHost]

/-- The host of an image's registry has no slash. -/
theorem not_mem_registryHost {image : String} {t : TagReference}
    (h : TagReference.parse image = some t) : '/' ∉ t.registryHost.toList := by
  obtain ⟨w, hw, rfl⟩ := TagReference.exists_spells h
  unfold TagReference.registryHost
  cases hregistry : w.reference.registry with
  | none => decide
  | some r =>
    dsimp only
    split
    · decide
    · obtain ⟨-, hr, -⟩ := (hw.registry r).1 hregistry
      exact hr ▸ not_mem_takeWhile_slash _

/-- However a registry is spelt, it is filed under the name of its host. -/
theorem Spells.registryKey_eq (h : Spells host registry) (hhost : '/' ∉ host.toList) :
    registryKey registry = registryOfHost host.toList := by
  cases h with
  | @intro scheme name path hscheme hname hpath =>
  have hpath' : path.toList = [] ∨ ∃ rest, path.toList = '/' :: rest ∧ rest.head? ≠ some '/' := by
    rcases hpath with rfl | ⟨rest, rfl, hrest⟩
    · exact .inl rfl
    · exact .inr ⟨rest.toList, by rw [String.toList_append]; rfl, hrest⟩
  rcases hname with rfl | ⟨hname, hdefault⟩
  · exact Logins.registryKey_eq ⟨hhost, hpath'⟩ hscheme
  · have hslash : ∀ name ∈ defaultHosts, '/' ∉ name.toList := by decide
    rw [Logins.registryKey_eq ⟨hslash name hname, hpath'⟩ hscheme, registryOfHost_toList,
      registryOfHost_toList, if_pos hname, if_pos hdefault]

end

/-! ## Logins -/

/-- **A login is found however its registry is spelt.** The login that was filed under a spelling of
the registry of an image is the one for its host; all spellings of one registry are filed under one
name, which is the host itself unless the host is one of the default registry's. A login for a
registry with another name makes no difference, and names are filed under themselves. -/
theorem found_however_spelt {image : String} {t : TagReference}
    (h : TagReference.parse image = some t) (ls : Logins) (l : Login) :
    (∀ registry, Spells t.registryHost registry →
      registryKey registry =
        (if t.registryHost ∈ defaultHosts then "index.docker.io" else t.registryHost) ∧
      (ls.insert registry l).get? t.registryHost = some l) ∧
    (∀ registry, registryKey registry ≠ registryKey t.registryHost →
      (ls.insert registry l).get? t.registryHost = ls.get? t.registryHost) ∧
    ∀ registry, registryKey (registryKey registry) = registryKey registry := by
  have hhost := not_mem_registryHost h
  refine ⟨fun registry hspells => ?_, fun registry hne => ?_, registryKey_registryKey⟩
  · have hkey := hspells.registryKey_eq hhost
    refine ⟨by rw [hkey, registryOfHost_toList], ?_⟩
    unfold insert get?
    rw [hkey, registryKey_of_not_mem hhost, Table.get?_insert_self]
  · unfold insert get?
    rw [Table.get?_insert_of_ne (Ne.symm hne)]

/-- The default registry is found by another of its hosts, and a host that looks like a scheme is
found with a scheme before it. -/
theorem found_however_spelt_default :
    let l : Login := ⟨"bat", "man"⟩
    let hub : TagReference := ⟨some "docker.io", "team/app", "latest"⟩
    let odd : TagReference := ⟨some "https:", "app", "latest"⟩
    (TagReference.parse "docker.io/team/app" = some hub ∧
      Spells hub.registryHost "https://registry-1.docker.io/v2/" ∧
      (anonymous.insert "https://registry-1.docker.io/v2/" l).get? hub.registryHost = some l) ∧
    TagReference.parse "https:/app" = some odd ∧ Spells odd.registryHost "http://https:/v2" ∧
      (anonymous.insert "http://https:/v2" l).get? odd.registryHost = some l := by
  intro l hub odd
  have hhub : TagReference.parse "docker.io/team/app" = some hub := by decide
  have hodd : TagReference.parse "https:/app" = some odd := by decide
  have hhubSpelt : Spells hub.registryHost "https://registry-1.docker.io/v2/" :=
    @Spells.intro _ "https://" "registry-1.docker.io" "/v2/" (.inr (.inl rfl))
      (.inr ⟨by decide, by decide⟩) (.inr ⟨"v2/", rfl, by decide⟩)
  have hoddSpelt : Spells odd.registryHost "http://https:/v2" :=
    @Spells.intro _ "http://" "https:" "/v2" (.inr (.inr rfl)) (.inl rfl)
      (.inr ⟨"v2", rfl, by decide⟩)
  exact ⟨⟨hhub, hhubSpelt, ((found_however_spelt hhub anonymous l).1 _ hhubSpelt).2⟩, hodd,
    hoddSpelt, ((found_however_spelt hodd anonymous l).1 _ hoddSpelt).2⟩

end Prewarm.Logins

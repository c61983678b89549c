import Prewarm.Proofs.Image.Grammar
import Prewarm.Proofs.Transcript
import Prewarm.Reconcile

/-!
# References that are written are read again

A reference by a tag that is written as a text is read as itself, and the text is the one it was
read from, with the default tag after it if that had none (`parse_text`). An image that was pinned
has an at sign, so it is no reference by a tag, and to pin it once more asks no one and changes
nothing (`written_and_pinned`).
-/

namespace Prewarm

namespace TagReference

section
variable {s : String} {t : TagReference} {w : Spelling}

/-! ## Texts -/

/-- A spelling with its tag written out. -/
def Spelling.full (w : Spelling) : Spelling := { w with tag := some (w.tag.getD "latest") }

/-- A reference is written with all its parts. -/
@[simp] theorem text_reference (w : Spelling) : w.reference.text = w.full.text := by
  obtain ⟨r, p, t⟩ := w
  cases r <;> simp [Spelling.reference, Spelling.full, Spelling.text, TagReference.text, context,
    String.append_assoc]

@[simp] theorem reference_full (w : Spelling) : w.full.reference = w.reference := rfl

/-- A text with all its parts is one with a tag, or one that the default tag was added to. -/
theorem Spells.text_full (h : Spells s w) :
    (w.tag = none ∧ w.full.text = s ++ ":latest") ∨ w.tag ≠ none ∧ w.full = w := by
  obtain ⟨r, p, t⟩ := w
  cases t with
  | none =>
    refine .inl ⟨rfl, ?_⟩
    rw [h.text]
    simp [Spelling.full, Spelling.text]
  | some t => exact .inr ⟨Option.some_ne_none t, rfl⟩

/-- What comes after a text with a slash does not change what comes before the first one. -/
theorem takeWhile_append_of_mem {a : List Char} (h : '/' ∈ a) (b : List Char) :
    (a ++ b).takeWhile (· ≠ '/') = a.takeWhile (· ≠ '/') := by
  obtain ⟨x, y, rfl, hx⟩ := List.eq_append_cons_of_mem h
  rw [List.append_assoc, List.cons_append, takeWhile_append_slash hx, takeWhile_append_slash hx]

/-- A text whose tag is written out is spelt as it was. -/
theorem Spells.full (h : Spells s w) : Spells w.full.text w.full := by
  rcases h.text_full with ⟨hnone, htext⟩ | ⟨-, hfull⟩
  · have hlist : w.full.text.toList = s.toList ++ ":latest".toList := by
      rw [htext, String.toList_append]
    have htag : w.full.tag = some "latest" := by simp [Spelling.full, hnone]
    refine ⟨rfl, ?_, ?_, h.repository, fun t ht => ?_, fun r => ?_⟩
    · rw [hlist, List.mem_append]
      exact fun hmem => hmem.elim h.noAt (by decide)
    · have hblank : ":latest".toList.any Text.isBlank = false := by decide
      rw [hlist, List.forall_mem_append]
      exact ⟨h.noBlank, by simpa using hblank⟩
    · cases htag.symm.trans ht
      exact isTag_iff.1 (by decide)
    · have hno : '/' ∉ ":latest".toList := by decide
      rw [show w.full.registry = w.registry from rfl, h.registry, hlist, List.mem_append,
        or_iff_left hno]
      exact and_congr_right fun hmem => by rw [takeWhile_append_of_mem hmem]
  · rw [hfull, ← h.text]
    exact h

/-- A reference that is written is read as itself. -/
theorem parse_text (h : parse s = some t) : parse t.text = some t := by
  obtain ⟨w, hw, rfl⟩ := exists_spells h
  rw [text_reference, hw.full.parse_eq, reference_full]

/-- A reference is written like the text it was read from, if that has a tag. -/
theorem Spells.text_reference (h : Spells s w) :
    w.reference.text = w.tag.elim (s ++ ":latest") fun _ => s := by
  rw [TagReference.text_reference]
  rcases h.text_full with ⟨hnone, htext⟩ | ⟨hsome, hfull⟩
  · rw [htext, hnone]
    rfl
  · obtain ⟨tag, htag⟩ := Option.ne_none_iff_exists'.1 hsome
    rw [hfull, htag, h.text]
    rfl

/-- A reference by a digest is none by a tag. -/
@[simp] theorem parse_withDigest (t : TagReference) (digest : String) :
    parse (t.withDigest digest) = none := by
  refine Option.eq_none_iff_forall_ne_some.2 fun t' h => (parse_eq_some_iff.1 h).1 ?_
  simp [withDigest]

end

end TagReference

namespace PinSources

open TagReference

/-! ## Pins -/

/-- An image that is no reference by a tag is pinned as it is, and no one is asked. -/
theorem pin_of_parse_none {m : Type → Type} [Monad m] (src : PinSources m) {image : String}
    (h : parse image = none) (ns : String) (secrets : List String) :
    src.pin ns image secrets = pure (.ok image) := by
  unfold pin
  rw [h]

/-- An image by a tag is pinned to the digest that its registry is asked for last. -/
theorem pin_of_parse_some {ns image r : String} {secrets : List String} {t : TagReference}
    {es : List ((q : Reconcile.Query) × q.Answer)} (ht : parse image = some t)
    (h : (Reconcile.sources.pin ns image secrets).Transcript es (.ok r)) :
    ∃ es' ls digest, es = es' ++ [⟨.digest t ls, .ok digest⟩] ∧ r = t.withDigest digest := by
  unfold pin at h
  rw [ht] at h
  obtain ⟨es₁, logins, es₂, rfl, -, hrest⟩ := Dialogue.transcript_bind_iff.1 h
  cases logins with
  | error e => nomatch (Dialogue.transcript_done_iff.1 hrest).2
  | ok ls =>
    obtain ⟨a, es', rfl, hend⟩ := Dialogue.transcript_ask_iff.1 hrest
    obtain ⟨rfl, himage⟩ := Dialogue.transcript_done_iff.1 hend
    cases a with
    | error e => cases himage
    | ok digest =>
      cases himage
      exact ⟨es₁, ls, digest, rfl, rfl⟩

/-- What an image was pinned to is no reference by a tag. -/
theorem parse_pinned {ns image r : String} {secrets : List String}
    {es : List ((q : Reconcile.Query) × q.Answer)}
    (h : (Reconcile.sources.pin ns image secrets).Transcript es (.ok r)) : parse r = none := by
  cases ht : parse image with
  | none =>
    rw [pin_of_parse_none Reconcile.sources ht] at h
    cases (Dialogue.transcript_done_iff.1 h).2
    exact ht
  | some t =>
    obtain ⟨-, -, digest, -, rfl⟩ := pin_of_parse_some ht h
    exact parse_withDigest t digest

/-- **A reference reads the same after it was written, and a pinned image stays as it is.** The
text of a reference by a tag is read as that reference. It is the text that the reference was read
from, with the default tag after it if that has none. Whoever is asked when an image is pinned and
whatever they answer, what it was pinned to is pinned to itself in every namespace and with any
secrets, and no one is asked. If the image was a reference by a tag it is pinned to its context with
the digest that the registry gave for it. -/
theorem written_and_pinned :
    (∀ s t, parse s = some t → parse t.text = some t ∧
      ∃ w, Spells s w ∧ t = w.reference ∧ t.text = w.tag.elim (s ++ ":latest") fun _ => s) ∧
    ∀ ns image r secrets es, (Reconcile.sources.pin ns image secrets).Transcript es (.ok r) →
      (∀ ns' secrets' es' x, (Reconcile.sources.pin ns' r secrets').Transcript es' x ↔
        es' = [] ∧ x = .ok r) ∧
      ∀ t, parse image = some t → ∃ es' ls digest,
        es = es' ++ [⟨.digest t ls, .ok digest⟩] ∧ r = t.context ++ "@" ++ digest := by
  refine ⟨fun s t h => ⟨parse_text h, ?_⟩, fun ns image r secrets es h => ⟨?_, fun t ht => ?_⟩⟩
  · obtain ⟨w, hw, rfl⟩ := exists_spells h
    exact ⟨w, hw, rfl, hw.text_reference⟩
  · intro ns' secrets' es' x
    rw [pin_of_parse_none Reconcile.sources (parse_pinned h)]
    exact Dialogue.transcript_done_iff
  · exact pin_of_parse_some ht h

/-- An image without a tag is written with one, and one with a tag is pinned once. -/
theorem written_and_pinned_app :
    let app : TagReference := ⟨some "gcr.io", "proj/app", "latest"⟩
    parse app.text = some app ∧
    ∀ secrets es' x,
      (Reconcile.sources.pin "ns" "gcr.io/proj/app@sha256:1" secrets).Transcript es' x ↔
        es' = [] ∧ x = .ok "gcr.io/proj/app@sha256:1" := by
  intro app
  obtain ⟨hread, hpin⟩ := written_and_pinned
  have happ : parse "gcr.io/proj/app" = some app := by decide
  have hasked : (Reconcile.sources.pin "ns" "gcr.io/proj/app" []).Transcript
      [⟨.digest app .anonymous, .ok "sha256:1"⟩] (.ok "gcr.io/proj/app@sha256:1") := by
    unfold pin
    rw [happ]
    exact Dialogue.transcript_ask_iff.2 ⟨Except.ok "sha256:1", [], rfl, .done _⟩
  exact ⟨(hread _ _ happ).1, (hpin _ _ _ _ _ hasked).1 "ns"⟩

end PinSources

end Prewarm

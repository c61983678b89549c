import Prewarm.Proofs.WorkQueue.Exclusive

/-!
# Keys that are accepted

A text that is read as a name in a namespace is the key of the object with that name there, or this
key with a slash in front: a namespace that is written and empty is read like none
(`Key.split_eq_ok_iff`). So among the keys without a slash in front there is one for each object,
and a queue that hands out each of them to one worker at a time does so with each object
(`accepted_canonical`). With a slash in front an object outside namespaces has a second key, and two
workers can be at work on it (`accepted_slashed`).
-/

namespace Prewarm

namespace Key

variable {k k' : Key} {ns name : String}

/-- Whether a text has a slash in front. -/
def IsSlashed (k : Key) : Prop := ∃ rest : String, k = "/" ++ rest

/-! ## Texts that are read as keys -/

/-- What is read from a key: a name that is not empty and the namespace, if one is written. -/
theorem parts_of_split (h : k.split = .ok (ns, name)) : name ≠ "" ∧
    (ns = "" ∧ Text.parts '/' k.toList = [name.toList] ∨
      Text.parts '/' k.toList = [ns.toList, name.toList]) := by
  have hname : ∀ n : List Char, n ≠ [] → String.ofList n ≠ "" := fun n hn he =>
    hn (by simpa using congrArg String.toList he)
  unfold split at h
  split at h
  · next n hparts =>
    split at h
    · cases h
    · next hn =>
      cases h
      exact ⟨hname n hn, .inl ⟨rfl, by simp [hparts]⟩⟩
  · next a n hparts =>
    split at h
    · cases h
    · next hn =>
      cases h
      exact ⟨hname n hn, .inr (by simp [hparts])⟩
  · cases h

/-- A text is read as a name in a namespace if it is the key made of them or, outside namespaces,
the name with a slash in front. -/
theorem split_eq_ok_iff : k.split = .ok (ns, name) ↔
    (name ≠ "" ∧ '/' ∉ ns.toList ∧ '/' ∉ name.toList) ∧
      (k = ofParts ns name ∨ ns = "" ∧ k = "/" ++ name) := by
  constructor
  · intro h
    obtain ⟨hne, ⟨rfl, hparts⟩ | hparts⟩ := parts_of_split h
    · obtain ⟨-, hslash, hjoin⟩ := Text.parts_eq_iff.1 hparts
      have hk : name = k := String.toList_injective (by simpa [Text.join] using hjoin)
      have hname : '/' ∉ name.toList := hslash _ (.head _)
      exact ⟨⟨hne, by simp, hname⟩, .inl (by simp [ofParts, hk])⟩
    · obtain ⟨-, hslash, hjoin⟩ := Text.parts_eq_iff.1 hparts
      have hk : ns ++ "/" ++ name = k :=
        String.toList_injective (by simpa [Text.join] using hjoin)
      have hns : '/' ∉ ns.toList := hslash _ (.head _)
      have hname : '/' ∉ name.toList := hslash _ (.tail _ (.head _))
      refine ⟨⟨hne, hns, hname⟩, ?_⟩
      by_cases hempty : ns = ""
      · exact .inr ⟨hempty, by simp [← hk, hempty]⟩
      · exact .inl (by simp [ofParts, hempty, hk])
  · rintro ⟨⟨hne, hns, hname⟩, rfl | ⟨rfl, rfl⟩⟩
    · exact split_ofParts hns hname hne
    · have hparts : Text.parts '/' ("/" ++ name).toList = [[], name.toList] :=
        Text.parts_eq_iff.2 ⟨by simp, by simpa using hname, by simp [Text.join]⟩
      have hchars : name.toList ≠ [] := by simpa using hne
      simp only [split, hparts, if_neg hchars, String.ofList_nil, String.ofList_toList]

/-- A key that is made of a name and a namespace has no slash in front. -/
theorem not_isSlashed_ofParts (hns : '/' ∉ ns.toList) (hname : '/' ∉ name.toList) :
    ¬ (ofParts ns name).IsSlashed := by
  rintro ⟨rest, h⟩
  have hchars := congrArg String.toList h
  by_cases hempty : ns = ""
  · simp [ofParts, hempty] at hchars
    simp [hchars] at hname
  · cases hc : ns.toList with
    | nil => exact hempty (by simpa using hc)
    | cons c cs =>
      simp [ofParts, hempty, hc] at hchars
      simp [hc, hchars] at hns

/-- A key that is read as a name in a namespace is the key of the object with that name there,
unless it has a slash in front. Then the namespace is none, and the rest is the key. -/
theorem eq_or_isSlashed_of_split (h : k.split = .ok (ns, name)) :
    k = ofParts ns name ∧ ¬ k.IsSlashed ∨
      k.IsSlashed ∧ ns = "" ∧ k = "/" ++ ofParts ns name := by
  obtain ⟨⟨-, hns, hname⟩, rfl | ⟨rfl, rfl⟩⟩ := split_eq_ok_iff.1 h
  · exact .inl ⟨rfl, not_isSlashed_ofParts hns hname⟩
  · exact .inr ⟨⟨name, rfl⟩, rfl, by simp [ofParts]⟩

/-- Of the keys without a slash in front, one is read as a name in a namespace. -/
theorem eq_of_split_eq {o : String × String} (h : k.split = .ok o) (h' : k'.split = .ok o)
    (hk : ¬ k.IsSlashed) (hk' : ¬ k'.IsSlashed) : k = k' := by
  obtain ⟨heq, -⟩ | ⟨hslash, -⟩ := eq_or_isSlashed_of_split h
  · obtain ⟨heq', -⟩ | ⟨hslash', -⟩ := eq_or_isSlashed_of_split h'
    · rw [heq, heq']
    · exact absurd hslash' hk'
  · exact absurd hslash hk

end Key

namespace WorkQueue

section
variable {L : Type} [Limiter L] {queueName : String} {l : L} {τ : History} {q : WorkQueue L}

/-- A text without a slash in front that is read as a name in a namespace is the key of each object
with that name there. With a slash in front it is read only outside namespaces, and is then the key
with a slash before it. So keys without a slash in front that are read alike are the same, and
between two hand-outs of keys that are read as one object the work on it is done. -/
theorem accepted_canonical (hr : Run (withLimiter queueName l) τ q) :
    (∀ (k : Key) (ns name : String) (m : Metadata), k.split = .ok (ns, name) → m.IsNamed ns name →
      (¬ k.IsSlashed → k = m.key) ∧ (k.IsSlashed → ns = "" ∧ k = "/" ++ m.key)) ∧
    (∀ name : String, name ≠ "" → '/' ∉ name.toList →
      Key.split name = .ok ("", name) ∧ Key.split ("/" ++ name) = .ok ("", name)) ∧
    (∀ (k k' : Key) (o : String × String), k.split = .ok o → k'.split = .ok o →
      ¬ k.IsSlashed → ¬ k'.IsSlashed → k = k') ∧
    ∀ (k k' : Key) (o : String × String) (g g' : GetterId) (t t' : Instant) (τ₁ τ₂ τ₃ : History),
      k.split = .ok o → k'.split = .ok o → ¬ k.IsSlashed → ¬ k'.IsSlashed →
      τ = τ₁ ++ (t, .handOut g k) :: τ₂ ++ (t', .handOut g' k') :: τ₃ →
      ∃ t'', (t'', Deed.done k) ∈ τ₂ := by
  refine ⟨fun k ns name m h hm => ?_, fun name hne hslash => ?_,
    fun k k' o h h' hk hk' => Key.eq_of_split_eq h h' hk hk', ?_⟩
  · rw [hm.key_eq]
    obtain ⟨heq, hk⟩ | ⟨hk, hns, heq⟩ := Key.eq_or_isSlashed_of_split h
    · exact ⟨fun _ => heq, fun hslash => absurd hslash hk⟩
    · exact ⟨fun hno => absurd hk hno, fun _ => ⟨hns, heq⟩⟩
  · exact ⟨Key.split_eq_ok_iff.2 ⟨⟨hne, by simp, hslash⟩, .inl (by simp [Key.ofParts])⟩,
      Key.split_eq_ok_iff.2 ⟨⟨hne, by simp, hslash⟩, .inr ⟨rfl, rfl⟩⟩⟩
  · intro k k' o g g' t t' τ₁ τ₂ τ₃ h h' hk hk' hτ
    obtain rfl := Key.eq_of_split_eq h h' hk hk'
    have hl : Ledger [] (withLimiter queueName l) := ⟨.nil, fun k => .rfl⟩
    exact hr.done_between (exclusive_withLimiter queueName l) hl hτ

end

/-- A key is handed out, and again once it is done. It is the key of the object it is read as. -/
theorem accepted_canonical_again :
    let q₀ : WorkQueue RateLimiter := withLimiter "q" (.slowest [])
    let τ : History := [(⟨0⟩, .add "ns/a"), (⟨0⟩, .handOut 1 "ns/a"), (⟨1⟩, .done "ns/a"),
      (⟨1⟩, .add "ns/a"), (⟨2⟩, .handOut 2 "ns/a")]
    (∃ q, Run q₀ τ q) ∧ Key.split "ns/a" = .ok ("ns", "a") ∧ ¬ Key.IsSlashed "ns/a" ∧
      "ns/a" = Metadata.key { name := some "a", ns := some "ns" } ∧
      ∃ t : Instant, (t, Deed.done "ns/a") ∈ [(⟨1⟩, .done "ns/a"), (⟨1⟩, .add "ns/a")] := by
  intro q₀ τ
  have h₁ : Run q₀ [(⟨0⟩, .add "ns/a"), (⟨0⟩, .handOut 1 "ns/a")] _ :=
    .next (.next .start (by simp) (.add "ns/a")) (by simp) (.handOut rfl)
  have h₂ : Run q₀ [(⟨0⟩, .add "ns/a"), (⟨0⟩, .handOut 1 "ns/a"), (⟨1⟩, .done "ns/a"),
      (⟨1⟩, .add "ns/a")] _ :=
    .next (h₁.next (fun k e => by cases e; decide) (.done "ns/a")) (by simp) (.add "ns/a")
  have h : Run q₀ τ _ := h₂.next (by simp) (.handOut rfl)
  have hsplit : Key.split "ns/a" = .ok ("ns", "a") := rfl
  have hslash : ¬ Key.IsSlashed "ns/a" := by
    rintro ⟨rest, hrest⟩
    simpa using congrArg String.toList hrest
  obtain ⟨hkey, -, -, hdone⟩ := accepted_canonical h
  exact ⟨⟨_, h⟩, hsplit, hslash, (hkey _ _ _ _ hsplit ⟨rfl, rfl⟩).1 hslash,
    hdone "ns/a" "ns/a" _ 1 2 ⟨0⟩ ⟨2⟩ [_] [_, _] [] hsplit hsplit hslash hslash rfl⟩

/-- With a slash in front the key of an object outside namespaces is accepted and is not its key,
and two workers can have the two keys of the object at a time. -/
theorem accepted_slashed :
    Key.split "/a" = .ok ("", "a") ∧ Key.split "a" = .ok ("", "a") ∧
    (∀ m : Metadata, m.IsNamed "" "a" → "/a" ≠ m.key) ∧
    let q₀ : WorkQueue RateLimiter := withLimiter "q" (.slowest [])
    let q := ((((q₀.add "a").add "/a").ask 1).2.ask 2).2
    ∃ τ, Run q₀ τ q ∧ "a" ∈ q.processing ∧ "/a" ∈ q.processing := by
  refine ⟨rfl, rfl, fun m hm => ?_, ?_⟩
  · rw [hm.key_eq]
    decide
  · intro q₀ q
    have h₁ : Run q₀ [(⟨0⟩, .add "a"), (⟨0⟩, .add "/a")] _ :=
      .next (.next .start (by simp) (.add "a")) (by simp) (.add "/a")
    have h : Run q₀ [(⟨0⟩, .add "a"), (⟨0⟩, .add "/a"), (⟨0⟩, .handOut 1 "a"),
        (⟨0⟩, .handOut 2 "/a")] q :=
      .next (h₁.next (by simp) (.handOut rfl)) (by simp) (.handOut rfl)
    exact ⟨_, h, by decide, by decide⟩

end WorkQueue

end Prewarm

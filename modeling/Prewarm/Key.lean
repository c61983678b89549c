import Prewarm.Metadata
import Prewarm.Text.Quoted
import Prewarm.Text.Split

/-!
# Work keys

A work key names an object: `namespace/name`, or the name alone for an object outside namespaces.
`Key.ofParts` writes one and `Key.split` reads it; a text with an empty name, or with a second
slash, is no key.
-/

namespace Prewarm

/-- The name of an object as it stands on a queue. Any text can stand there. -/
abbrev Key := String

/-- A text that is no work key. -/
structure InvalidKey where
  text : String
  deriving DecidableEq, Repr

/-- What is said of a text that is no work key. -/
def InvalidKey.message (e : InvalidKey) : String := "invalid resource key: " ++ Text.quoted e.text

namespace Key

/-- The key of the object with a name in a namespace, which is empty outside namespaces. -/
def ofParts (ns name : String) : Key := if ns = "" then name else ns ++ "/" ++ name

/-- The namespace and the name a key is made of. -/
def split (k : Key) : Except InvalidKey (String × String) :=
  match Text.parts '/' k.toList with
  | [name] => if name = [] then .error ⟨k⟩ else .ok ("", String.ofList name)
  | [ns, name] => if name = [] then .error ⟨k⟩ else .ok (String.ofList ns, String.ofList name)
  | _ => .error ⟨k⟩

/-- A key made of texts without a slash is read as what it was made of. -/
theorem split_ofParts {ns name : String} (hns : '/' ∉ ns.toList) (hname : '/' ∉ name.toList)
    (hne : name ≠ "") : (ofParts ns name).split = .ok (ns, name) := by
  have hchars : name.toList ≠ [] := fun h => hne (String.toList_eq_nil_iff.1 h)
  unfold ofParts
  split
  · next hempty =>
    subst hempty
    simp only [split, Text.parts_of_not_mem hname, if_neg hchars, String.ofList_toList]
  · have hkey : (ns ++ "/" ++ name).toList = ns.toList ++ '/' :: name.toList := by
      simp [String.toList_append]
    simp only [split, hkey, Text.parts_append hns, Text.parts_of_not_mem hname, if_neg hchars,
      String.ofList_toList]

/-- The characters of a key: those of the namespace, a slash and those of the name, or only those of
the name where there is no namespace. -/
theorem toList_ofParts (ns name : String) : (ofParts ns name).toList =
    if ns = "" then name.toList else ns.toList ++ '/' :: name.toList := by
  unfold ofParts
  split <;> simp [String.toList_append]

/-- A key made of texts without a slash is made of no other texts, unless of a name with a slash
alone. -/
theorem ofParts_inj {ns name ns' name' : String} (hns' : '/' ∉ ns'.toList)
    (hname' : '/' ∉ name'.toList) (hname : ns = "" → '/' ∉ name.toList)
    (h : ofParts ns name = ofParts ns' name') : ns = ns' ∧ name = name' := by
  have hchars := congrArg String.toList h
  rw [toList_ofParts, toList_ofParts] at hchars
  by_cases hempty : ns = "" <;> by_cases hempty' : ns' = ""
  · simp only [if_pos hempty, if_pos hempty'] at hchars
    exact ⟨hempty.trans hempty'.symm, String.toList_inj.1 hchars⟩
  · simp only [if_pos hempty, if_neg hempty'] at hchars
    exact absurd (hchars ▸ List.mem_append_right _ (.head _)) (hname hempty)
  · simp only [if_neg hempty, if_pos hempty'] at hchars
    exact absurd (hchars ▸ List.mem_append_right _ (.head _)) hname'
  · simp only [if_neg hempty, if_neg hempty'] at hchars
    -- There is one slash in either text, so none before it.
    have hcount := congrArg (List.count '/') hchars
    simp only [List.count_append, List.count_cons_self, List.count_eq_zero.2 hns',
      List.count_eq_zero.2 hname'] at hcount
    have hns : '/' ∉ ns.toList := List.count_eq_zero.1 (by omega)
    have hcut := Text.cutFirst_append hns name.toList
    rw [hchars, Text.cutFirst_append hns'] at hcut
    obtain ⟨hn, hm⟩ := Prod.mk.inj (Option.some.inj hcut)
    exact ⟨String.toList_inj.1 hn.symm, String.toList_inj.1 hm.symm⟩

end Key

/-- The key of an object. -/
def Metadata.key (m : Metadata) : Key := Key.ofParts (m.ns.getD "") (m.name.getD "")

/-- Whether an object has a name in a namespace. A field that is not set is an empty one, and
outside namespaces the namespace is empty. -/
structure Metadata.IsNamed (m : Metadata) (ns name : String) : Prop where
  ns : m.ns.getD "" = ns
  name : m.name.getD "" = name

/-- The key of what has a name and a namespace is that of the two. -/
theorem Metadata.IsNamed.key_eq {m : Metadata} {ns name : String} (h : m.IsNamed ns name) :
    m.key = Key.ofParts ns name := by
  rw [key, h.ns, h.name]

/-- The key of a resource. -/
def keyOf {α : Type} [Resource α] (a : α) : Key := (metadata a).key

end Prewarm

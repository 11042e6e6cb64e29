import Mathlib.Data.List.Induction
import Playpen.Value
import Playpen.Yaml.Schema
/-!
Data: plain values, lists of them, and records that hold data by one name or more. This is what a configuration is
made of when it is written.
-/
namespace Playpen

inductive Scalar.IsPlain : Scalar → Prop
  | null : IsPlain .null
  | bool (b : Bool) : IsPlain (.bool b)
  | int {i : Int} (h : isWritable i = true) : IsPlain (.int i)
  | float (x : Double) : IsPlain (.float x)
  | text (s : String) : IsPlain (.text s)

def isNameChar (c : Char) : Bool := ('a' ≤ c && c ≤ 'z') || c = '_'

structure IsName (k : String) : Prop where
  nonempty : k.toList ≠ []
  letters : k.toList.all isNameChar = true
  text : Yaml.Schema.tagOf k.toList = Yaml.strTag
  short : k.toList.length ≤ 100

def record (entries : List (String × Value)) : Value := .map (entries.map fun e => (.text e.1, e.2))

inductive Value.IsData : Value → Prop
  | scalar {s : Scalar} (h : s.IsPlain) : IsData (.scalar s)
  | list {items : List Scalar} (h : ∀ s ∈ items, s.IsPlain) : IsData (.list (items.map .scalar))
  | record {entries : List (String × Value)} (hne : entries ≠ []) (hnames : ∀ e ∈ entries, IsName e.1)
    (hdistinct : (entries.map Prod.fst).Nodup) (h : ∀ e ∈ entries, IsData e.2) : IsData (record entries)

namespace Value

theorem sameKey_text (a b : String) : (Scalar.text a).sameKey (.text b) = decide (a = b) := by
  simp [Scalar.sameKey, Scalar.key]

theorem insert_record {α : Type} {name : String} (value : α) {entries : List (String × α)}
    (h : name ∉ entries.map Prod.fst) : Value.insert (.text name) value (entries.map fun e => (.text e.1, e.2)) =
      (entries ++ [(name, value)]).map fun e => (.text e.1, e.2) := by
  induction entries with
  | nil => rfl
  | cons e entries ih =>
    rw [List.map_cons, List.mem_cons, not_or] at h
    have hne : e.1 ≠ name := Ne.symm h.1
    simp [Value.insert, sameKey_text, hne, ih h.2]

theorem ofPairs_record {α : Type} {entries : List (String × α)} (h : (entries.map Prod.fst).Nodup) :
    ofPairs (entries.map fun e => (.text e.1, e.2)) = entries.map fun e => (Scalar.text e.1, e.2) := by
  induction entries using List.reverseRecOn with
  | nil => rfl
  | append_singleton entries e ih =>
    rw [List.map_append, List.map_singleton, List.nodup_append] at h
    have hfresh : e.1 ∉ entries.map Prod.fst := fun hmem => h.2.2 _ hmem _ (List.mem_singleton_self _) rfl
    have hfold : ofPairs ((entries ++ [e]).map fun e => (Scalar.text e.1, e.2)) =
        Value.insert (.text e.1) e.2 (ofPairs (entries.map fun e => (Scalar.text e.1, e.2))) := by
      simp [ofPairs]
    rw [hfold, ih h.1, insert_record e.2 hfresh]

theorem depth_le_deepestEntry {entries : List (String × Value)} {e : String × Value} (h : e ∈ entries) :
    e.2.depth ≤ deepestEntry (entries.map fun e => (.text e.1, e.2)) := by
  induction entries with
  | nil => cases h
  | cons e' entries ih =>
    rw [List.map_cons, deepestEntry]
    rcases List.mem_cons.mp h with rfl | h
    · exact Nat.le_max_left _ _
    · exact Nat.le_trans (ih h) (Nat.le_max_right _ _)

end Value

end Playpen

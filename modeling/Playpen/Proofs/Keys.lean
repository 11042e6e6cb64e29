import Mathlib.Data.List.Nodup
import Playpen.Value

namespace Playpen.Value

variable {α : Type} {key other k : Value} {l : List (Value × α)}

theorem sameKey_iff {a b : Value} : a.sameKey b = true ↔ a.isKey = true ∧ a.key? = b.key? := by
  simp [sameKey]

theorem sameKey_comm {a b : Value} : a.sameKey b = b.sameKey a := by
  have half : ∀ {a b : Value}, a.sameKey b = true → b.sameKey a = true := by
    intro a b h
    obtain ⟨ha, he⟩ := sameKey_iff.mp h
    exact sameKey_iff.mpr ⟨by simpa [isKey, ← he] using ha, he.symm⟩
  exact Bool.eq_iff_iff.mpr ⟨half, half⟩

theorem sameKey_self {a : Value} (h : a.isKey = true) : a.sameKey a = true :=
  sameKey_iff.mpr ⟨h, rfl⟩

theorem sameKey_trans {a b c : Value} (hab : a.sameKey b = true) (hbc : b.sameKey c = true) :
    a.sameKey c = true :=
  sameKey_iff.mpr ⟨(sameKey_iff.mp hab).1, (sameKey_iff.mp hab).2.trans (sameKey_iff.mp hbc).2⟩

theorem other_of_sameKey (hs : k.sameKey key = true) (ho : key.sameKey other = false) : k.sameKey other = false := by
  by_contra h
  rw [Bool.not_eq_false] at h
  rw [sameKey_trans (sameKey_comm.trans hs) h] at ho
  cases ho

theorem lookUp_congr (h : key.key? = other.key?) : key.lookUp l = other.lookUp l := by
  induction l with
  | nil => rfl
  | cons p l ih =>
    obtain ⟨k, a⟩ := p
    have hs : k.sameKey key = k.sameKey other := by simp [sameKey, h]
    simp only [lookUp, hs, ih]

theorem mem_of_lookUp {a : α} (h : key.lookUp l = some a) : ∃ k, (k, a) ∈ l ∧ k.sameKey key = true := by
  induction l with
  | nil => cases h
  | cons p l ih =>
    obtain ⟨k, b⟩ := p
    by_cases hk : k.sameKey key = true
    · simp only [lookUp, hk, ↓reduceIte, Option.some.injEq] at h
      exact ⟨k, by simp [h], hk⟩
    · simp only [lookUp, hk, Bool.false_eq_true, ↓reduceIte] at h
      obtain ⟨k', hm, hs⟩ := ih h
      exact ⟨k', List.mem_cons_of_mem _ hm, hs⟩

theorem lookUp_eq_none_iff : key.lookUp l = none ↔ ∀ p ∈ l, p.1.sameKey key = false := by
  induction l with
  | nil => simp [lookUp]
  | cons p l ih =>
    obtain ⟨k, b⟩ := p
    by_cases hk : k.sameKey key = true <;> simp [lookUp, hk, ih]

theorem lookUp_append (l m : List (Value × α)) :
    key.lookUp (l ++ m) = (key.lookUp l).or (key.lookUp m) := by
  induction l with
  | nil => simp [lookUp]
  | cons p l ih =>
    obtain ⟨k, b⟩ := p
    by_cases hk : k.sameKey key = true <;> simp [lookUp, hk, ih]

theorem lookUp_filter_self : key.lookUp (l.filter (!·.1.sameKey key)) = none := by
  rw [lookUp_eq_none_iff]
  intro p hp
  simpa using (List.mem_filter.mp hp).2

theorem lookUp_filter_ne (h : other.sameKey key = false) :
    other.lookUp (l.filter (!·.1.sameKey key)) = other.lookUp l := by
  induction l with
  | nil => rfl
  | cons p l ih =>
    obtain ⟨k, b⟩ := p
    by_cases hk : k.sameKey key = true
    · have ho : k.sameKey other = false := other_of_sameKey hk (sameKey_comm.trans h)
      simp [hk, lookUp, ho, ih]
    · simp only [List.filter_cons, hk, Bool.not_false, ↓reduceIte, lookUp, ih]

structure Keyed (l : List (Value × α)) : Prop where
  proper : ∀ p ∈ l, p.1.isKey = true
  once : (l.map (·.1.key?)).Nodup

theorem Keyed.nil : Keyed ([] : List (Value × α)) := ⟨by simp, by simp⟩

theorem Keyed.lookUp_of_mem {a : α} (h : Keyed l) (hm : (k, a) ∈ l) (hk : k.sameKey key = true) :
    key.lookUp l = some a := by
  induction l with
  | nil => cases hm
  | cons p l ih =>
    obtain ⟨j, b⟩ := p
    have hl : Keyed l := ⟨fun p hp => h.proper p (List.mem_cons_of_mem _ hp), by
      simpa using (List.nodup_cons.mp h.once).2⟩
    rcases List.mem_cons.mp hm with heq | hrest
    · simp only [Prod.mk.injEq] at heq
      simp [lookUp, ← heq.1, ← heq.2, hk]
    · have hj : j.sameKey key = false := by
        by_contra hc
        have hjk : j.key? = k.key? :=
          (sameKey_iff.mp (by simpa using hc)).2.trans (sameKey_iff.mp hk).2.symm
        exact (List.nodup_cons.mp h.once).1 (List.mem_map.mpr ⟨(k, a), hrest, hjk.symm⟩)
      simp only [lookUp, hj, Bool.false_eq_true, ↓reduceIte]
      exact ih hl hrest

theorem Keyed.append {a : α} (h : Keyed l) (hk : key.isKey = true) (hn : key.lookUp l = none) :
    Keyed (l ++ [(key, a)]) := by
  constructor
  · intro p hp
    rcases List.mem_append.mp hp with hp | hp
    · exact h.proper p hp
    · simp only [List.mem_singleton] at hp
      simpa [hp] using hk
  · rw [List.map_append, List.nodup_append]
    refine ⟨h.once, by simp, ?_⟩
    intro x hx y hy
    obtain ⟨p, hp, rfl⟩ := List.mem_map.mp hx
    obtain rfl : y = key.key? := by simpa using hy
    intro he
    have := lookUp_eq_none_iff.mp hn p hp
    simp [sameKey, h.proper p hp, he] at this

theorem Keyed.filter (h : Keyed l) (p : Value × α → Bool) : Keyed (l.filter p) where
  proper q hq := h.proper q (List.mem_filter.mp hq).1
  once := (List.Sublist.map _ List.filter_sublist).nodup h.once

end Playpen.Value

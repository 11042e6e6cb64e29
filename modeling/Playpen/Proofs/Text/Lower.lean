import Mathlib.Data.List.Forall2
import Playpen.Proofs.Text.Utf8
import Playpen.Text.Lower

namespace Playpen.Text

inductive Recases : Char → Char → Prop
  | itself (d : Char) : Recases d d
  | capital {c d : Char} (hc : c.isUpper = true) (hd : d.toNat = c.toNat + 32) : Recases c d
  | kelvin : Recases '\u212a' 'k'

def IsPlain (d : Char) : Prop := d.toNat < 128 ∧ d.isUpper = false

instance (d : Char) : Decidable (IsPlain d) := inferInstanceAs (Decidable (_ ∧ _))

theorem lowerRuns_cases : ∀ r ∈ lowerRuns, r = (65, 90, 1, 32) ∨ r = (8490, 8490, 1, -8383) ∨
    128 ≤ r.1 ∧ 128 ≤ r.1 + r.2.2.2 ∧
      (r.2.1 + r.2.2.2 < 0xd800 ∨ 0xdfff < r.1 + r.2.2.2 ∧ r.2.1 + r.2.2.2 < 0x110000) := by decide +kernel

theorem isUpper_iff (c : Char) : c.isUpper = true ↔ 65 ≤ c.toNat ∧ c.toNat ≤ 90 := decide_eq_true_iff

theorem lowerChar_capital {c : Char} (hc : c.isUpper = true) : (lowerChar c).toNat = c.toNat + 32 := by
  have hall : ∀ n < 91, 65 ≤ n → (lowerChar (Char.ofNat n)).toNat = n + 32 := by decide +kernel
  obtain ⟨hlow, hhigh⟩ := (isUpper_iff c).mp hc
  have h := hall c.toNat (by omega) hlow
  rwa [Char.ofNat_toNat] at h

theorem lowerChar_plain {d : Char} (hd : IsPlain d) : lowerChar d = d := by
  have hall : ∀ n < 128, IsPlain (Char.ofNat n) → lowerChar (Char.ofNat n) = Char.ofNat n := by decide +kernel
  have h := hall d.toNat hd.1
  rw [Char.ofNat_toNat] at h
  exact h hd

theorem lowerChar_cases (c : Char) : Recases c (lowerChar c) ∨ 128 ≤ (lowerChar c).toNat := by
  have hvalue {n : Nat} (h : n.isValidChar) : (Char.ofNat n).toNat = n := Utf8.val_ofNat h
  unfold lowerChar
  dsimp only
  split
  · rename_i run delta hfound
    have hmem := List.mem_of_find?_eq_some hfound
    have hin := List.find?_some hfound
    simp only [Bool.and_eq_true, decide_eq_true_eq, beq_iff_eq] at hin
    obtain ⟨⟨hlow, hhigh⟩, -⟩ := hin
    rcases lowerRuns_cases _ hmem with h | h | ⟨-, hsmall, hvalid⟩
    · cases h
      have hupper : c.isUpper = true := (isUpper_iff c).mpr ⟨hlow, hhigh⟩
      exact .inl (.capital hupper (hvalue (.inl (by omega))))
    · cases h
      have hc : c = '\u212a' := Char.toNat_inj.mp (Nat.le_antisymm hhigh hlow)
      subst hc
      exact .inl .kelvin
    · dsimp only at hsmall hvalid
      rw [hvalue]
      · omega
      · rcases hvalid with h | ⟨h, h'⟩
        · exact .inl (by omega)
        · exact .inr ⟨by omega, by omega⟩
  · exact .inl (.itself c)

theorem lowerChar_eq_iff {c d : Char} (hd : IsPlain d) : lowerChar c = d ↔ Recases c d := by
  constructor
  · rintro rfl
    exact (lowerChar_cases c).resolve_right (Nat.not_le.mpr hd.1)
  · rintro (_ | ⟨hc, hcapital⟩ | _)
    · exact lowerChar_plain hd
    · exact Char.toNat_inj.mp ((lowerChar_capital hc).trans hcapital.symm)
    · decide +kernel

theorem not_recases {c d : Char} (hc : c = 'İ' ∨ c = 'Σ') (hd : IsPlain d) : ¬Recases c d := by
  intro h
  rcases hc with rfl | rfl
  all_goals
    cases h with
    | itself => exact absurd hd (by decide)
    | capital hc => exact absurd hc (by decide)

theorem lowerFrom_cons {c : Char} (hc : ¬(c = 'İ' ∨ c = 'Σ')) (before rest : List Char) :
    lowerFrom before (c :: rest) = lowerChar c :: lowerFrom (c :: before) rest := by
  obtain ⟨hdotted, hsigma⟩ := not_or.mp hc
  rw [lowerFrom, if_neg hdotted, if_neg fun h => hsigma h.1]
  rfl

theorem lowerFrom_special {c : Char} (hc : c = 'İ' ∨ c = 'Σ') (before rest : List Char) :
    ∃ d ∈ lowerFrom before (c :: rest), ¬IsPlain d := by
  rcases hc with rfl | rfl
  · exact ⟨'\u0307', List.mem_append_left _ (by rw [if_pos rfl]; decide), by decide⟩
  · rw [lowerFrom, if_neg (by decide)]
    split
    · exact ⟨'ς', List.mem_append_left _ (by decide), by decide⟩
    · exact ⟨lowerChar 'Σ', List.mem_append_left _ (List.mem_singleton_self _), by decide +kernel⟩

theorem lowerFrom_eq_iff {before s t : List Char} (ht : ∀ d ∈ t, IsPlain d) :
    lowerFrom before s = t ↔ List.Forall₂ Recases s t := by
  induction s generalizing before t with
  | nil => rw [List.forall₂_nil_left_iff, lowerFrom, eq_comm]
  | cons c rest ih =>
    by_cases hc : c = 'İ' ∨ c = 'Σ'
    · refine iff_of_false ?_ ?_
      · rintro rfl
        obtain ⟨d, hd, hplain⟩ := lowerFrom_special hc before rest
        exact hplain (ht d hd)
      · rintro (_ | ⟨h, -⟩)
        exact not_recases hc (ht _ List.mem_cons_self) h
    · rw [lowerFrom_cons hc, List.forall₂_cons_left_iff]
      constructor
      · rintro rfl
        rw [List.forall_mem_cons] at ht
        exact ⟨_, _, (lowerChar_eq_iff ht.1).mp rfl, (ih ht.2).mp rfl, rfl⟩
      · rintro ⟨d, t', h, hrest, rfl⟩
        rw [List.forall_mem_cons] at ht
        rw [(lowerChar_eq_iff ht.1).mpr h, (ih ht.2).mpr hrest]

theorem lower_eq_iff {s t : String} (ht : ∀ d ∈ t.toList, IsPlain d) :
    lower s = t ↔ List.Forall₂ Recases s.toList t.toList := by
  rw [lower, ← String.toList_inj, String.toList_ofList]
  exact lowerFrom_eq_iff ht

end Playpen.Text

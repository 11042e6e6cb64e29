import Playpen.Proofs.Act
import Playpen.Yaml.Cursor

namespace Playpen.Yaml

def isPrinted (c : Char) : Bool := 0x20 ≤ c.toNat && c.toNat ≤ 0x7e

section Characters

variable {c : Char}

theorem ne_of_isPrinted {d : Char} (h : isPrinted c = true) (hd : isPrinted d = false) : c ≠ d := by
  rintro rfl
  rw [h] at hd
  cases hd

theorem isBreak_of_isPrinted (h : isPrinted c = true) : isBreak c = false := by
  simp [isBreak, ne_of_isPrinted h (show isPrinted '\n' = false from rfl),
    ne_of_isPrinted h (show isPrinted '\x85' = false from rfl),
    ne_of_isPrinted h (show isPrinted '\u2028' = false from rfl),
    ne_of_isPrinted h (show isPrinted '\u2029' = false from rfl)]

theorem endsWord_of_isPrinted (h : isPrinted c = true) : endsWord c = decide (c = ' ') := by
  simp [endsWord, endsItem, endsLine, isBreak_of_isPrinted h, ne_of_isPrinted h (show isPrinted '\t' = false from rfl),
    ne_of_isPrinted h (show isPrinted '\x00' = false from rfl)]

end Characters

namespace Cursor

theorem advance_add (m n : Nat) (c : Cursor) : c.advance (m + n) = (c.advance m).advance n := by
  induction m generalizing c with
  | zero => rw [Nat.zero_add, advance]
  | succ m ih => rw [Nat.add_right_comm, advance, advance, ih]

theorem rest_step (c : Cursor) : c.step.rest = c.rest.drop 1 := by
  unfold step
  split
  · simp_all
  · split <;> simp_all

theorem rest_advance (n : Nat) (c : Cursor) : (c.advance n).rest = c.rest.drop n := by
  induction n generalizing c with
  | zero => rfl
  | succ n ih => rw [advance, ih, rest_step, List.drop_drop, Nat.add_comm]

theorem rest_advance_append {c : Cursor} {t rest : List Char} (h : c.rest = t ++ rest) :
    (c.advance t.length).rest = rest := by
  rw [rest_advance, h, List.drop_left]

theorem step_printed {c : Cursor} {x : Char} {rest : List Char} (h : c.rest = x :: rest) (hx : isPrinted x = true) :
    c.step = { c with rest, offset := c.offset + 1, column := c.column + 1 } := by
  simp [step, h, isBreak_of_isPrinted hx, ne_of_isPrinted hx (show isPrinted '\ufeff' = false from rfl)]

theorem step_break {c : Cursor} {rest : List Char} (h : c.rest = '\n' :: rest) :
    c.step = { c with rest, offset := c.offset + 1, line := c.line + 1, column := 0 } := by
  simp [step, h, isBreak]

theorem advance_printed {c : Cursor} {t rest : List Char} (h : c.rest = t ++ rest) (ht : t.all isPrinted = true) :
    c.advance t.length = { c with rest, offset := c.offset + t.length, column := c.column + t.length } := by
  induction t generalizing c with
  | nil =>
    subst h
    rfl
  | cons x t ih =>
    rw [List.all_cons, Bool.and_eq_true] at ht
    have hstep := step_printed h ht.1
    rw [List.length_cons, advance, hstep, ih rfl ht.2]
    simp [Nat.add_comm, Nat.add_left_comm]

theorem all_replicate_space (n : Nat) : (List.replicate n ' ').all isPrinted = true := by
  rw [List.all_replicate]
  split <;> rfl

theorem advance_line {c : Cursor} {n : Nat} {rest : List Char} (h : c.rest = '\n' :: List.replicate n ' ' ++ rest) :
    c.advance (n + 1) = { c with rest, offset := c.offset + (n + 1), line := c.line + 1, column := n } := by
  have hrest : c.step.rest = List.replicate n ' ' ++ rest := by
    rw [rest_step, h]
    rfl
  have hspaces := advance_printed hrest (all_replicate_space n)
  rw [List.length_replicate] at hspaces
  rw [Nat.add_comm, advance_add]
  show (advance n c.step) = _
  rw [hspaces, step_break h]
  simp [Nat.add_comm, Nat.add_left_comm]

theorem line_le_advance (n : Nat) (c : Cursor) : c.line ≤ (c.advance n).line := by
  induction n generalizing c with
  | zero => exact Nat.le_refl _
  | succ n ih =>
    refine Nat.le_trans ?_ (ih c.step)
    unfold step
    split
    · exact Nat.le_refl _
    · split
      · exact Nat.le_succ _
      · exact Nat.le_refl _

theorem peek_zero {c : Cursor} {x : Char} {rest : List Char} (h : c.rest = x :: rest) : c.peek = x := by
  simp [peek, h]

theorem span_append {c : Cursor} {p : Char → Bool} {t rest : List Char} (h : c.rest = t ++ rest) (ht : t.all p = true)
    (hrest : ∀ x ∈ rest.head?, p x = false) : c.span p = t := by
  rw [span, h, List.takeWhile_append_of_pos (List.all_eq_true.mp ht)]
  cases rest with
  | nil => simp
  | cons x rest => simp [hrest x rfl]

theorem skip_append {c : Cursor} {p : Char → Bool} {t rest : List Char} (h : c.rest = t ++ rest) (ht : t.all p = true)
    (hrest : ∀ x ∈ rest.head?, p x = false) : c.skip p = c.advance t.length := by
  rw [skip, span_append h ht hrest]

theorem not_atSeparator {c : Cursor} (h : ∀ x ∈ c.rest.head?, x ≠ '-' ∧ x ≠ '.') : c.atSeparator = false := by
  unfold atSeparator
  cases hrest : c.rest with
  | nil => rfl
  | cons x rest =>
    obtain ⟨hd, hp⟩ := h x (by rw [hrest]; rfl)
    simp [hd, hp]

end Cursor

namespace Scan

variable {c : Cursor}

theorem run_get : (get : Scan Cursor) c = (.ok c, c) := rfl

theorem run_peek {k : Nat} (h : k < c.rest.length) : peek k c = (.ok (c.peek k), c) := by
  have hne : (c.rest.drop k).isEmpty = false := by
    rw [List.isEmpty_eq_false_iff, ne_eq, List.drop_eq_nil_iff]
    omega
  unfold peek
  rw [Act.bind_ok run_get, hne]
  rfl

theorem run_peek_zero {x : Char} {rest : List Char} (h : c.rest = x :: rest) : peek 0 c = (.ok x, c) := by
  rw [run_peek (by rw [h]; exact Nat.zero_lt_succ _), Cursor.peek_zero h]

theorem run_forward (n : Nat) : forward n c = (.ok (), c.advance n) := rfl

theorem run_takeWhile (p : Char → Bool) : takeWhile p c = (.ok (c.span p), c.skip p) := rfl

theorem run_takeWhile_append {p : Char → Bool} {t rest : List Char} (h : c.rest = t ++ rest) (ht : t.all p = true)
    (hrest : ∀ x ∈ rest.head?, p x = false) : takeWhile p c = (.ok t, c.advance t.length) := by
  rw [run_takeWhile, Cursor.span_append h ht hrest, Cursor.skip_append h ht hrest]

theorem run_takeBreak {rest : List Char} (h : c.rest = '\n' :: rest) : takeBreak c = (.ok ['\n'], c.step) := by
  unfold takeBreak
  rw [Act.bind_ok run_get]
  simp [Cursor.takeBreak, Cursor.peek_zero h, isBreak, Cursor.breakText]
  rfl

end Scan

end Playpen.Yaml

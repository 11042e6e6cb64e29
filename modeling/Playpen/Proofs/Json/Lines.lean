import Playpen.Json.Printer
import Playpen.Proofs.Number.Notation
import Playpen.Proofs.Text.Units

namespace Playpen.Json

def Steady (s : List Char) : Prop := '\r' ∉ s

instance (s : List Char) : Decidable (Steady s) := inferInstanceAs (Decidable ('\r' ∉ s))

theorem steady_append {s t : List Char} : Steady (s ++ t) ↔ Steady s ∧ Steady t := by
  simp [Steady]

theorem steady_cons {c : Char} {s : List Char} : Steady (c :: s) ↔ c ≠ '\r' ∧ Steady s := by
  simp [Steady, eq_comm]

theorem steady_of_all {p : Char → Bool} {s : List Char} (h : s.all p = true) (hp : p '\r' = false) : Steady s := by
  intro hmem
  rw [List.all_eq_true.mp h _ hmem] at hp
  cases hp

theorem steady_hex (width n : Nat) : Steady (Text.hex width n) := by
  have hall : ∀ d < 16, Text.hexDigit d ≠ '\r' := by decide
  rw [Text.hex_eq_map]
  intro hmem
  obtain ⟨d, hd, hreturn⟩ := List.mem_map.mp hmem
  exact hall d (Text.nibbles_lt width n d hd) hreturn

theorem steady_escape (c : Char) : Steady (escape c) := by
  unfold escape
  split_ifs with h₁ h₂ h₃ h₄ h₅ h₆ h₇ h₈
  iterate 7 decide
  · exact steady_cons.mpr ⟨h₄, List.not_mem_nil⟩
  · intro hmem
    obtain ⟨n, -, hn⟩ := List.mem_flatMap.mp hmem
    exact steady_cons.mpr ⟨by decide, steady_cons.mpr ⟨by decide, steady_hex 4 n⟩⟩ hn

theorem steady_string (s : String) : Steady (string s) := by
  refine steady_append.mpr ⟨steady_cons.mpr ⟨by decide, fun hmem => ?_⟩, by decide⟩
  obtain ⟨c, -, hc⟩ := List.mem_flatMap.mp hmem
  exact steady_escape c hc

theorem steady_number (x : Double) : Steady (number x) := by
  cases x with
  | nan => decide
  | infinite negative => cases negative <;> decide
  | finite x =>
    obtain ⟨n, hn, htext, -⟩ := Double.roundTripDigits_notation x
    have hnumber : number (.finite x) = (if x.negative then ['-'] else []) ++ n.text := by
      unfold number Double.inWords Double.signed
      rw [String.toList_ofList, htext]
      cases x.negative <;> rfl
    rw [hnumber]
    refine steady_append.mpr ⟨by cases x.negative <;> decide, steady_of_all hn.number (by decide)⟩

variable {layout : Layout}

theorem steady_line (layout : Layout) (depth : Nat) : Steady (layout.line depth) := by
  unfold Layout.line
  split
  · exact List.not_mem_nil
  · simp [Steady, List.mem_replicate]

theorem steady_between (layout : Layout) (depth : Nat) : Steady (layout.between depth) := by
  unfold Layout.between
  split
  · decide
  · exact steady_cons.mpr ⟨by decide, steady_line layout depth⟩

theorem steady_scalar (hlayout : layout.integer = Scalar.integerText) {s : Scalar} {text : List Char}
    (h : scalar layout s = .ok text) :
    Steady text := by
  cases s with
  | null => cases h; decide
  | bool b => cases h; cases b <;> decide
  | int i =>
    rw [scalar, hlayout, Scalar.integerText] at h
    split_ifs at h
    cases h
    rw [Numeral.toString_eq]
    refine steady_append.mpr ⟨by split <;> decide, steady_of_all (Numeral.toDigits_digits _) (by decide)⟩
  | float x => cases h; exact steady_number x
  | nan mark => cases h; exact steady_number .nan
  | text s => cases h; exact steady_string s
  | bytes data => cases h
  | day d => cases h
  | moment m => cases h

theorem steady_key (hlayout : layout.integer = Scalar.integerText) {s : Scalar} {text : List Char}
    (h : key layout s = .ok text) :
    Steady text := by
  by_cases htext : ∃ t, s = .text t
  · obtain ⟨t, rfl⟩ := htext
    cases h
    exact steady_string t
  · rw [key] at h
    · cases hs : scalar layout s with
      | error misuse =>
        rw [hs] at h
        cases h
      | ok t =>
        rw [hs] at h
        cases h
        exact steady_append.mpr ⟨steady_cons.mpr ⟨by decide, steady_scalar hlayout hs⟩, by decide⟩
    · exact fun t ht => htext ⟨t, ht⟩

theorem steady_draft_append {a b : Draft} (ha : Steady a.text) (hb : Steady b.text) : Steady (a ++ b).text := by
  show Steady (Draft.append a b).text
  rw [Draft.append]
  split
  · exact ha
  · exact steady_append.mpr ⟨ha, hb⟩

theorem steady_ofText {r : Except Misuse (List Char)} (h : ∀ text, r = .ok text → Steady text) :
    Steady (Draft.ofText r).text := by
  cases r with
  | error misuse => exact List.not_mem_nil
  | ok text => exact h text rfl

mutual

theorem steady_render (hlayout : layout.integer = Scalar.integerText) :
    ∀ (depth : Nat) (lead : List Char) (v : Value), Steady lead → Steady (render layout depth lead v).text
  | depth, lead, .scalar s, hlead => by
    rw [render]
    split
    next text htext => exact steady_append.mpr ⟨hlead, steady_scalar hlayout htext⟩
    next => exact List.not_mem_nil
    next => exact hlead
  | depth, lead, .list items, hlead => by
    rw [render]
    exact steady_renderAll hlayout depth lead items hlead
  | depth, lead, .tuple items, hlead => by
    rw [render]
    exact steady_renderAll hlayout depth lead items hlead
  | depth, lead, .map [], hlead => by
    rw [render]
    exact steady_append.mpr ⟨hlead, by decide⟩
  | depth, lead, .map (e :: rest), hlead => by
    rw [render]
    · exact steady_draft_append (steady_draft_append
        (steady_append.mpr ⟨hlead, steady_cons.mpr ⟨by decide, steady_line layout _⟩⟩)
        (steady_renderEntries hlayout (depth + 1) [] (e :: rest) List.not_mem_nil))
        (steady_append.mpr ⟨steady_line layout _, by decide⟩)
    · nofun
  | depth, lead, .set _, hlead => hlead
  | depth, lead, .knot _, hlead => hlead

theorem steady_renderAll (hlayout : layout.integer = Scalar.integerText) :
    ∀ (depth : Nat) (lead : List Char) (items : List Value), Steady lead →
    Steady (renderAll layout depth lead items).text
  | depth, lead, [], hlead => steady_append.mpr ⟨hlead, by decide⟩
  | depth, lead, v :: rest, hlead => by
    rw [renderAll]
    exact steady_draft_append (steady_draft_append
      (steady_render hlayout (depth + 1) _ v
      (steady_append.mpr ⟨hlead, steady_cons.mpr ⟨by decide, steady_line layout _⟩⟩))
      (steady_renderItems hlayout (depth + 1) rest)) (steady_append.mpr ⟨steady_line layout _, by decide⟩)

theorem steady_renderItems (hlayout : layout.integer = Scalar.integerText) :
    ∀ (depth : Nat) (items : List Value), Steady (renderItems layout depth items).text
  | depth, [] => List.not_mem_nil
  | depth, v :: rest => by
    rw [renderItems]
    exact steady_draft_append (steady_render hlayout depth _ v (steady_between layout depth))
      (steady_renderItems hlayout depth rest)

theorem steady_renderEntries (hlayout : layout.integer = Scalar.integerText) :
    ∀ (depth : Nat) (lead : List Char) (entries : List (Scalar × Value)), Steady lead →
    Steady (renderEntries layout depth lead entries).text
  | depth, lead, [], hlead => List.not_mem_nil
  | depth, lead, (k, v) :: rest, hlead => by
    rw [renderEntries]
    refine steady_draft_append (steady_draft_append (steady_ofText fun text htext => ?_)
      (steady_render hlayout depth [] v List.not_mem_nil))
      (steady_renderEntries hlayout depth _ rest (steady_between layout depth))
    cases hkey : key layout k with
    | error misuse =>
      rw [hkey] at htext
      cases htext
    | ok name =>
      rw [hkey] at htext
      cases htext
      exact steady_append.mpr ⟨steady_append.mpr ⟨hlead, steady_key hlayout hkey⟩, by decide⟩

end

theorem steady_draft (hlayout : layout.integer = Scalar.integerText) (v : Value) : Steady (draft layout v).text :=
  steady_render hlayout 0 [] v List.not_mem_nil

end Playpen.Json

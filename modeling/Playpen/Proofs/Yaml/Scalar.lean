import Playpen.Proofs.Yaml.Number
import Playpen.Yaml.Node.Value

namespace Playpen.Yaml

def Token.Kind.Means (k : Token.Kind) (s : Scalar) : Prop :=
  ∃ text plain name, k = .scalar text plain ∧ Read.scalarTag none plain text = core name ∧ name ∈ Build.scalarNames ∧
    ∀ (mark : Nat) (start : Mark), Schema.value name mark start text = .ok s

inductive ScalarText (indent : Nat) : List Char → Token.Kind → Prop
  | plain {s t : List Char} (hopens : Style.Opens s) (h : PlainSpells indent s t) : ScalarText indent t (.scalar s true)
  | quoted {q : Quote} {s t : List Char} (h : Spells indent q s t) :
    ScalarText indent (q.mark :: t ++ [q.mark]) (.scalar s false)

def plainNames : List String := ["str", "null", "bool", "int", "float"]

structure Known (s : Scalar) (name : String) (text : List Char) : Prop where
  written : Printer.textOf s = .ok (core name, text)
  standard : name ∈ plainNames
  value (mark : Nat) (start : Mark) : Schema.value name mark start text = .ok s
  form : name ≠ "str" → text ≠ [] ∧ Schema.tagOf text = core name ∧ Style.allowsPlain text = true

theorem isTame_of_isNumberChar {c : Char} (h : Numeral.isNumberChar c = true) : Style.isTame c = true :=
  Numeral.of_isNumberChar (by decide) h

theorem allowsPlain_number {s : List Char} (negative : Bool) (hs : s.all Numeral.isNumberChar = true)
    (hhead : ∃ c t, s = c :: t ∧ Text.isAsciiDigit c = true) : Style.allowsPlain (signText negative ++ s) = true := by
  obtain ⟨c, t, rfl, hc⟩ := hhead
  have htame : (c :: t).all Style.isTame = true :=
    List.all_eq_true.mpr fun d hd => isTame_of_isNumberChar (List.all_eq_true.mp hs d hd)
  have hne {d : Char} (hd : Text.isAsciiDigit d = false) : c ≠ d := by
    rintro rfl
    rw [hd] at hc
    cases hc
  cases negative with
  | true =>
    have hends : endsWord c = false := by
      have hcons := htame
      simp only [List.all_cons, Style.isTame, Bool.and_eq_true, Bool.not_eq_true', Bool.or_eq_false_iff,
        decide_eq_false_iff_not] at hcons
      rw [endsWord_of_isPrinted hcons.1.1]
      exact decide_eq_false hcons.1.2.1.1
    have hminus : ('-' :: c :: t).all Style.isTame = true := Bool.and_eq_true_iff.mpr ⟨rfl, htame⟩
    have hleads : Style.leads '-' ((c :: t).headD '\x00') = false := by simp [Style.leads, hends]
    exact Style.allowsPlain_tame hminus hleads
      (by simp [Style.startsSeparator, List.isPrefixOf, (hne (d := '-') rfl).symm])
  | false =>
    have hleads : Style.leads c (t.headD '\x00') = false := by
      have hnot (l : List Char) (hl : (l.all fun d => !Text.isAsciiDigit d) = true) : l.contains c = false := by
        rw [Bool.eq_false_iff, ne_eq, List.contains_iff_mem]
        intro hmem
        simpa [hc] using List.all_eq_true.mp hl c hmem
      rw [Style.leads, hnot _ (by decide), hnot _ (by decide)]
      rfl
    exact Style.allowsPlain_tame htame hleads
      (by simp [Style.startsSeparator, List.isPrefixOf, (hne (d := '-') rfl).symm, (hne (d := '.') rfl).symm])

theorem known_number (x : Double) : ∃ text, Known (.float x) "float" text := by
  cases x with
  | nan => exact ⟨".nan".toList, rfl, by decide, fun _ _ => rfl, fun _ => by decide⟩
  | infinite negative =>
    cases negative with
    | true => exact ⟨"-.inf".toList, rfl, by decide, fun _ _ => rfl, fun _ => by decide⟩
    | false => exact ⟨".inf".toList, rfl, by decide, fun _ _ => rfl, fun _ => by decide⟩
  | finite x =>
    obtain ⟨n, hn, hf, hx, htext⟩ := floatText_finite x
    refine ⟨signText x.negative ++ n.text, ?_, by decide, fun mark start => ?_, fun _ => ⟨?_, ?_, ?_⟩⟩
    · rw [Printer.textOf, htext]
    · rw [Schema.value, Schema.float_text hn hx]
      rfl
    · obtain ⟨c, t, htext, -⟩ := hn.head
      simp [htext]
    · exact Schema.tagOf_float hn hf x.negative
    · exact allowsPlain_number _ hn.number hn.head

theorem known {s : Scalar} (h : s.IsPlain) : ∃ name text, Known s name text := by
  cases h with
  | null => exact ⟨"null", "null".toList, rfl, by decide, fun _ _ => rfl, fun _ => by decide⟩
  | bool b =>
    cases b with
    | true => exact ⟨"bool", "true".toList, rfl, by decide, fun _ _ => rfl, fun _ => by decide⟩
    | false => exact ⟨"bool", "false".toList, rfl, by decide, fun _ _ => rfl, fun _ => by decide⟩
  | @int i hi =>
    have hwhole := Schema.isWhole_toDigits i.natAbs
    have hhead : ∃ c t, Nat.toDigits 10 i.natAbs = c :: t ∧ Text.isAsciiDigit c = true := by
      obtain ⟨c, t, hcons⟩ := List.exists_cons_of_ne_nil hwhole.nonempty
      exact ⟨c, t, hcons, List.all_eq_true.mp hwhole.digits c (by rw [hcons]; exact List.mem_cons_self ..)⟩
    refine ⟨"int", signText (decide (i < 0)) ++ Nat.toDigits 10 i.natAbs, ?_, by decide, fun mark start => ?_,
      fun _ => ⟨by simp [hwhole.nonempty], Schema.tagOf_int hwhole _, ?_⟩⟩
    · rw [Printer.textOf, Scalar.integerText, if_pos hi, toString_signText]
      rfl
    · rw [Schema.value, Schema.integer_toString hi]
      rfl
    · exact allowsPlain_number _ (Notation.all_isNumberChar hwhole.digits) hhead
  | float x =>
    obtain ⟨text, htext⟩ := known_number x
    exact ⟨"float", text, htext⟩
  | text s =>
    refine ⟨"str", s.toList, rfl, by decide, fun mark start => ?_, fun h => absurd rfl h⟩
    rw [Schema.value, String.ofList_toList]
    all_goals decide

theorem plainNames_standard {name : String} (h : name ∈ plainNames) : name ∈ Build.scalarNames := by
  have hall : plainNames.all Build.scalarNames.contains = true := by decide
  simpa using List.all_eq_true.mp hall name h

theorem wrote_scalar {h : Sheet} {indent : Nat} (hindent : indent < Sheet.width) (hblank : h.blank = false) {s : Scalar}
    (hs : s.IsPlain) : ∃ tag text t k, Printer.textOf s = .ok (tag, text) ∧ tag ≠ core "binary" ∧
    ScalarText indent t k ∧
      k.Means s ∧ Sheet.Wrote h (' ' :: t) (h.scalar tag false indent text) := by
  obtain ⟨name, text, hknown⟩ := known hs
  have hname := hknown.standard
  simp only [plainNames, List.mem_cons, List.not_mem_nil, or_false] at hname
  have hbinary : core name ≠ core "binary" := by
    rcases hname with rfl | rfl | rfl | rfl | rfl <;> decide
  have hne : Schema.tagOf text = core name → text ≠ [] := by
    rintro htag rfl
    by_cases hstr : name = "str"
    · subst hstr
      revert htag
      decide
    · exact (hknown.form hstr).1 rfl
  have hstandard := plainNames_standard hknown.standard
  rcases Sheet.wrote_scalar hindent hblank (core name) hne with ⟨htag, hopens, t, hspells, hwrote⟩ |
    ⟨hquotes, q, t, hspells, hwrote⟩
  · exact ⟨core name, text, t, _, hknown.written, hbinary, .plain hopens hspells,
      ⟨text, true, name, rfl, htag, hstandard, hknown.value⟩, hwrote⟩
  · have hstr : name = "str" := by
      by_contra hstr
      obtain ⟨-, htag, hplain⟩ := hknown.form hstr
      rw [hquotes htag] at hplain
      cases hplain
    subst hstr
    exact ⟨core "str", text, q.mark :: t ++ [q.mark], _, hknown.written, hbinary, .quoted hspells,
      ⟨text, false, "str", rfl, rfl, hstandard, hknown.value⟩, hwrote⟩

section Names

theorem leads_name {c : Char} (hc : isNameChar c = true) (next : Char) : Style.leads c next = false := by
  have hnot (l : List Char) (hl : (l.all fun d => !isNameChar d) = true) : l.contains c = false := by
    rw [Bool.eq_false_iff, ne_eq, List.contains_iff_mem]
    intro hmem
    simpa [hc] using List.all_eq_true.mp hl c hmem
  rw [Style.leads, hnot _ (by decide), hnot _ (by decide)]
  rfl

variable {k : String}

theorem allowsPlain_name (hk : IsName k) : Style.allowsPlain k.toList = true := by
  obtain ⟨c, t, hcons⟩ := List.exists_cons_of_ne_nil hk.nonempty
  have hletters := hk.letters
  rw [hcons] at hletters ⊢
  have hc : isNameChar c = true := List.all_eq_true.mp hletters c (List.mem_cons_self ..)
  have htame : (c :: t).all Style.isTame = true := by
    refine List.all_eq_true.mpr fun d hd => ?_
    have hd := List.all_eq_true.mp hletters d hd
    simp [Style.isTame, isPrinted_of_isNameChar hd, ne_of_isNameChar (d := ' ') hd rfl,
      ne_of_isNameChar (d := ':') hd rfl, ne_of_isNameChar (d := '#') hd rfl]
  exact Style.allowsPlain_tame htame (leads_name hc _)
    (by simp [Style.startsSeparator, List.isPrefixOf, (ne_of_isNameChar (d := '-') hc rfl).symm,
      (ne_of_isNameChar (d := '.') hc rfl).symm])

theorem isSimpleKey_name (hk : IsName k) : Printer.isSimpleKey strTag k.toList = true := by
  have hlines : Style.isMultiline k.toList = false := List.any_eq_false.mpr fun c hc => by
    simp [isBreak_of_isPrinted (isPrinted_of_isNameChar (List.all_eq_true.mp hk.letters c hc))]
  have hwidth : Printer.tagWidth strTag = 5 := by decide
  have hempty : k.toList.isEmpty = false := by
    rw [List.isEmpty_eq_false_iff]
    exact hk.nonempty
  have hshort := hk.short
  rw [Printer.isSimpleKey, hlines, hempty, hwidth]
  simp
  omega

theorem wrote_key (hk : IsName k) {h : Sheet} {indent : Nat} (hblank : (h.indentTo indent).blank = true) :
    ∃ h', Printer.key indent (.text k) h = .ok h' ∧ Sheet.Wrote (h.indentTo indent) (k.toList ++ [':']) h' ∧
      h'.blank = false := by
  have hempty : k.toList.isEmpty = false := by
    rw [List.isEmpty_eq_false_iff]
    exact hk.nonempty
  have hruns : Sheet.runs k.toList = [.word k.toList] := by
    have hw : ∀ c ∈ k.toList, c ≠ ' ' ∧ c ≠ '\n' := fun c hc =>
      ⟨ne_of_isNameChar (List.all_eq_true.mp hk.letters c hc) rfl,
      ne_of_isNameChar (List.all_eq_true.mp hk.letters c hc) rfl⟩
    have hrun := Sheet.runs_word hk.nonempty hw (show ∀ d ∈ ([] : List Char).head?, d = ' ' ∨ d = '\n' by rintro d ⟨⟩)
    rwa [List.append_nil] at hrun
  have hscalar : Printer.scalar (some indent) true strTag k.toList (h.indentTo indent) =
      (h.indentTo indent).inUse.put k.toList := by
    have hchoose : Style.choose strTag true k.toList = .plain := by
      rw [Style.choose, hk.text, allowsPlain_name hk, hempty]
      rfl
    rw [Printer.scalar, if_neg (by decide), Sheet.scalar, hchoose]
    simp only [Sheet.plain, hempty, hblank, hruns]
    rfl
  refine ⟨((h.indentTo indent).inUse.put k.toList).mark [':'] false, ?_, ?_, rfl⟩
  · show (if Printer.isSimpleKey strTag k.toList = true then _ else _) = _
    rw [if_pos (isSimpleKey_name hk), hscalar]
  · have hname : Sheet.Wrote (h.indentTo indent) k.toList ((h.indentTo indent).inUse.put k.toList) := ⟨rfl, rfl⟩
    exact hname.trans (Sheet.wrote_mark ':' _)

end Names

end Playpen.Yaml

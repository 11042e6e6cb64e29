import Playpen.Proofs.Files.Writing
import Playpen.Proofs.Yaml.Printing
import Playpen.Proofs.Yaml.Unfolding

namespace Playpen.Yaml

theorem ascii_of_isLaid {s : List Char} (h : s.all isLaid = true) : ∀ b ∈ Utf8.encode s, b.toNat < 0x80 := by
  intro b hb
  obtain ⟨c, hc, hbc⟩ := List.mem_flatMap.mp hb
  have hlaid := List.all_eq_true.mp h c hc
  have hsmall : c.toNat < 0x80 := by
    simp only [isLaid, isPrinted, Bool.or_eq_true, Bool.and_eq_true, decide_eq_true_eq] at hlaid
    rcases hlaid with hprinted | rfl
    · omega
    · decide
  rw [Utf8.encodeChar_ascii hsmall, List.mem_singleton] at hbc
  rw [hbc, Utf8.toNat_ofNat (by omega)]
  exact hsmall

namespace Source

theorem Decoder.beforeMalformed?_ascii {fuel : Nat} {d : Decoder} (hbegun : d.begun = [])
    (h : ∀ b ∈ d.rest, b.toNat < 0x80) :
    d.beforeMalformed? fuel = none := by
  induction fuel generalizing d with
  | zero => rfl
  | succ fuel ih =>
    have hpiece : ∀ b ∈ d.rest.take d.pieceLength, b.toNat < 0x80 := fun b hb => h b (List.mem_of_mem_take hb)
    have hflaw : Utf8.flaw? (d.begun ++ d.rest.take d.pieceLength) = none := by
      rw [hbegun, List.nil_append, ← Utf8.encode_ofNat hpiece, Utf8.flaw?_encode]
    rw [beforeMalformed?, hflaw]
    show (if (d.rest.take d.pieceLength).isEmpty = true then none else _) = none
    split
    · rfl
    · exact ih rfl fun b hb => h b (List.mem_of_mem_drop (show b ∈ d.rest.drop _ from hb))

theorem ofBytes_encode {s : List Char} (h : s.all isLaid = true) : ofBytes (Utf8.encode s) = ⟨s, none⟩ := by
  have hsound : Decoder.beforeMalformed? ((Utf8.encode s).length + 2) { rest := Utf8.encode s } = none :=
    Decoder.beforeMalformed?_ascii rfl (ascii_of_isLaid h)
  have hreturn : '\r' ∉ s := fun hmem => by
    have := List.all_eq_true.mp h _ hmem
    revert this
    decide
  have hallowed : s.find? (fun c => !isAllowed c) = none := by
    refine List.find?_eq_none.mpr fun c hc => ?_
    have hlaid := List.all_eq_true.mp h c hc
    simp only [isLaid, isPrinted, Bool.or_eq_true] at hlaid
    rcases hlaid with hprinted | hline
    · simp [isAllowed, hprinted]
    · simp [isAllowed, hline]
  rw [ofBytes, hsound]
  simp only [Option.map_none, Option.elim_none]
  rw [Utf8.decodeLossy_encode, Text.unifyLineEnds_self hreturn, hallowed]

end Source

theorem parse_print {es : List (String × Value)} (hne : es ≠ []) (hnames : ∀ e ∈ es, IsName e.1)
    (hdistinct : (es.map Prod.fst).Nodup)
    (hdata : ∀ e ∈ es, e.2.IsData) (hdepth : 2 * (record es).depth < Sheet.width) :
    ∃ text, print (record es) = .ok text ∧ parse (Utf8.encode text) = .ok (record es) := by
  obtain ⟨t, ks, hprint, hblock, hparses, hlaid⟩ := print_record hne hnames hdata hdepth
  obtain ⟨ts, htokens, hkinds⟩ := hblock.tokens
  have hsource : Source.ofBytes (Utf8.encode (t ++ ['\n'])) = ⟨t ++ ['\n'], none⟩ :=
    Source.ofBytes_encode (by rw [List.all_append, hlaid]; rfl)
  refine ⟨_, hprint, parse_record (by rw [hsource, htokens]) hkinds hparses hdistinct ?_⟩
  have : Sheet.width ≤ Read.maxDepth := by decide
  omega

end Playpen.Yaml

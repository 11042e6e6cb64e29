import Playpen.Output.Sanitizer
import Playpen.Proofs.Text.Utf8

namespace Playpen

open Utf8 (Bytes)
open String (utf8EncodeChar)

namespace Stream

inductive Channel
  | output
  | errors
deriving DecidableEq

def Channel.mark : Channel → UInt8
  | output => 1
  | errors => 2

structure Header where
  channel : Channel
  size : UInt8 × UInt8 × UInt8 × UInt8
deriving DecidableEq

def Header.bytes (h : Header) : Bytes :=
  [h.channel.mark, 0, 0, 0, h.size.1, h.size.2.1, h.size.2.2.1, h.size.2.2.2]

structure Piece where
  header : Option Header
  data : Bytes
deriving DecidableEq

def Piece.bytes (p : Piece) : Bytes := (p.header.elim [] Header.bytes) ++ p.data

theorem dropFrames_header (h : Header) (rest : Bytes) : dropFrames (h.bytes ++ rest) = dropFrames rest := by
  have hh : isHeader h.channel.mark 0 0 0 = true := by cases h.channel <;> rfl
  unfold Header.bytes
  simp only [List.cons_append, List.nil_append]
  rw [dropFrames, if_pos hh]

theorem dropFrames_cons {a : UInt8} {rest : Bytes} (h : rest.head? ≠ some 0) :
    dropFrames (a :: rest) = a :: dropFrames rest := by
  match rest with
  | b :: c :: d :: e :: f :: g :: i :: rest =>
    have hb : b ≠ 0 := fun hb => h (by rw [hb]; rfl)
    have hn : isHeader a b c d = false := by simp [isHeader, hb]
    rw [dropFrames, hn]
    rfl
  | [] | [_] | [_, _] | [_, _, _] | [_, _, _, _] | [_, _, _, _, _] | [_, _, _, _, _, _] => simp [dropFrames]

theorem dropFrames_append {bs rest : Bytes} (hbs : 0 ∉ bs) (hrest : rest.head? ≠ some 0) :
    dropFrames (bs ++ rest) = bs ++ dropFrames rest := by
  induction bs with
  | nil => rfl
  | cons b bs ih =>
    have hbs' : 0 ∉ bs := fun h => hbs (List.mem_cons_of_mem b h)
    have hhead : (bs ++ rest).head? ≠ some 0 := by
      cases bs with
      | nil => exact hrest
      | cons c bs =>
        intro h
        exact hbs' (by rw [List.cons_append, List.head?_cons] at h; cases h; exact List.mem_cons_self)
    rw [List.cons_append, dropFrames_cons hhead, ih hbs', List.cons_append]

theorem dropFrames_of_not_mem {bs : Bytes} (h : 0 ∉ bs) : dropFrames bs = bs := by
  have hnil : dropFrames (bs ++ []) = bs ++ dropFrames [] := dropFrames_append h (by simp)
  simpa [dropFrames] using hnil

theorem head?_bytes {pieces : List Piece} (h : ∀ p ∈ pieces, 0 ∉ p.data) :
    (pieces.flatMap Piece.bytes).head? ≠ some 0 := by
  induction pieces with
  | nil => simp
  | cons p pieces ih =>
    have hp : 0 ∉ p.data := h p List.mem_cons_self
    have hrest := ih fun q hq => h q (List.mem_cons_of_mem p hq)
    rw [List.flatMap_cons]
    unfold Piece.bytes
    rcases p with ⟨_ | header, data⟩
    · cases data with
      | nil => exact hrest
      | cons b data =>
        intro hb
        cases hb
        exact hp List.mem_cons_self
    · intro hb
      have hmark : header.channel.mark = 0 := Option.some.inj hb
      cases hc : header.channel <;> rw [hc] at hmark <;> exact absurd hmark (by decide)

theorem dropFrames_bytes {pieces : List Piece} (h : ∀ p ∈ pieces, 0 ∉ p.data) :
    dropFrames (pieces.flatMap Piece.bytes) = pieces.flatMap Piece.data := by
  induction pieces with
  | nil => rfl
  | cons p pieces ih =>
    have hp : 0 ∉ p.data := h p List.mem_cons_self
    have hrest : ∀ q ∈ pieces, 0 ∉ q.data := fun q hq => h q (List.mem_cons_of_mem p hq)
    rw [List.flatMap_cons, List.flatMap_cons, ← ih hrest]
    have hdata := dropFrames_append hp (head?_bytes hrest)
    unfold Piece.bytes at *
    cases p.header with
    | none => exact hdata
    | some header => rw [Option.elim_some, List.append_assoc, dropFrames_header, hdata]

def isDebrisChar (c : Char) : Bool := c = '\x00' || c = '\x1a'

theorem isDebris_iff (b : UInt8) : isDebris b = true ↔ b.toNat = 0 ∨ b.toNat = 0x1a := by
  simp [isDebris, ← UInt8.toNat_inj]

theorem isDebrisChar_iff (c : Char) : isDebrisChar c = true ↔ c.toNat = 0 ∨ c.toNat = 0x1a := by
  simp [isDebrisChar, ← Char.toNat_inj]

theorem dropDebris_encodeChar (c : Char) :
    dropDebris (utf8EncodeChar c) = if isDebrisChar c then [] else utf8EncodeChar c := by
  unfold dropDebris
  split
  · rename_i hc
    simp only [isDebrisChar, Bool.or_eq_true, decide_eq_true_eq] at hc
    rcases hc with rfl | rfl <;> rfl
  · rename_i hc
    rw [List.filter_eq_self]
    intro b hb
    rw [Bool.not_eq_true', Bool.eq_false_iff, ne_eq, isDebris_iff]
    rw [isDebrisChar_iff] at hc
    rcases Utf8.mem_encodeChar hb with ⟨_, hbc⟩ | hbig <;> omega

theorem dropDebris_encode (t : List Char) :
    dropDebris (Utf8.encode t) = Utf8.encode (t.filter (!isDebrisChar ·)) := by
  induction t with
  | nil => rfl
  | cons c t ih =>
    have hsplit : dropDebris (Utf8.encode (c :: t)) =
        dropDebris (utf8EncodeChar c) ++ dropDebris (Utf8.encode t) := List.filter_append _ _
    rw [hsplit, dropDebris_encodeChar, ih, List.filter_cons]
    cases isDebrisChar c <;> rfl

theorem zero_not_mem_encode {t : List Char} (h : '\x00' ∉ t) : 0 ∉ Utf8.encode t := by
  intro h0
  obtain ⟨c, hc, hb⟩ := List.mem_flatMap.mp h0
  rcases Utf8.mem_encodeChar hb with ⟨_, hz⟩ | hbig
  · have hnul : '\x00' = c := Char.toNat_inj.mp hz
    exact h (hnul ▸ hc)
  · exact absurd hbig (by decide)

theorem clean_text {t : List Char} (h : '\x00' ∉ t) :
    clean (.text (t.map Char.toNat)) = t.filter (!isDebrisChar ·) := by
  have hdata : (Raw.text (t.map Char.toNat)).data = Utf8.encode t := Utf8.data_ofPoints t
  rw [clean, hdata, dropFrames_of_not_mem (zero_not_mem_encode h), dropDebris_encode,
    Utf8.decodeLossy_encode]

theorem clean_bytes {t : List Char} {pieces : List Piece} (h : '\x00' ∉ t)
    (hcut : pieces.flatMap Piece.data = Utf8.encode t) :
    clean (.bytes (pieces.flatMap Piece.bytes)) = t.filter (!isDebrisChar ·) := by
  have h0 := zero_not_mem_encode h
  have hdata : ∀ p ∈ pieces, 0 ∉ p.data := fun p hp hm =>
    h0 (hcut ▸ List.mem_flatMap.mpr ⟨p, hp, hm⟩)
  rw [clean, Raw.data, dropFrames_bytes hdata, hcut, dropDebris_encode, Utf8.decodeLossy_encode]

theorem sanitize_congr {raw other : Raw} (h : clean raw = clean other) (m : Markers) (sections : Bool) :
    sanitize m sections raw = sanitize m sections other := by
  unfold sanitize Sanitizer.lines
  rw [h]

/-- Taking a text out of its frames gives the text without its SUB characters, and sanitizing it in its
frames is sanitizing the text. -/
theorem clean_framed {t : List Char} {pieces : List Piece} (h : '\x00' ∉ t)
    (hcut : pieces.flatMap Piece.data = Utf8.encode t) :
    clean (.bytes (pieces.flatMap Piece.bytes)) = t.filter (· ≠ '\x1a') ∧
      ∀ m sections, sanitize m sections (.bytes (pieces.flatMap Piece.bytes)) =
        sanitize m sections (.text (t.map Char.toNat)) := by
  have hbytes := clean_bytes h hcut
  constructor
  · rw [hbytes]
    refine List.filter_congr fun c hc => ?_
    have hne : c ≠ '\x00' := fun hz => h (hz ▸ hc)
    simp [isDebrisChar, hne]
  · intro m sections
    exact sanitize_congr (hbytes.trans (clean_text h).symm) m sections

def scattered : List Piece :=
  [⟨some ⟨.output, 1, 0, 0, 0⟩, [0xc3]⟩, ⟨some ⟨.errors, 0, 0, 0, 10⟩, [0xa9, 0x6e, 0x01]⟩, ⟨none, []⟩,
    ⟨some ⟨.output, 2, 0, 0, 0⟩, [0x1a, 0x0a, 0x6f]⟩, ⟨none, [0x6b]⟩]

theorem clean_framed_scattered :
    let t := ['é', 'n', '\x01', '\x1a', '\n', 'o', 'k']
    '\x00' ∉ t ∧ scattered.flatMap Piece.data = Utf8.encode t ∧
      clean (.bytes (scattered.flatMap Piece.bytes)) = ['é', 'n', '\x01', '\n', 'o', 'k'] ∧
      (sanitize {} true (.bytes (scattered.flatMap Piece.bytes))).program = ['o', 'k'] := by
  intro t
  have h : '\x00' ∉ t := by decide
  have hcut : scattered.flatMap Piece.data = Utf8.encode t := by decide +kernel
  obtain ⟨hclean, hsanitize⟩ := clean_framed h hcut
  refine ⟨h, hcut, hclean.trans (by decide), ?_⟩
  rw [hsanitize]
  decide +kernel

end Stream

end Playpen

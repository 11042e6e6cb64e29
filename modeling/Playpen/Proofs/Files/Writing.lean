import Playpen.Files.Tree
import Playpen.Proofs.Act
import Playpen.Proofs.Text.Utf8

namespace Playpen

namespace Text

theorem unifyLineEnds_self {s : List Char} (h : '\r' ∉ s) : unifyLineEnds s = s := by
  induction s with
  | nil => rfl
  | cons c s ih =>
    obtain ⟨hc, hs⟩ := not_or.mp (List.mem_cons.not.mp h)
    rw [unifyLineEnds]
    · rw [ih hs]
    · rintro rest rfl
      exact absurd rfl hc
    · rintro rfl
      exact absurd rfl hc

end Text

namespace Tree

variable {t t' : Tree} {place : List String} {data : List UInt8}

theorem lookup_cons_eq (q : List String) (d : List UInt8) (files : List (List String × List UInt8))
    (other : List String) :
    ((q, d) :: files).lookup other = if other = q then some d else files.lookup other := by
  split
  next h =>
    subst h
    simp
  next h => rw [List.lookup_cons, beq_eq_false_iff_ne.mpr h]

theorem lookup_put (place : List String) (data : List UInt8) (files : List (List String × List UInt8))
    (other : List String) :
    (put place data files).lookup other = if other = place then some data else files.lookup other := by
  induction files with
  | nil => rw [put, lookup_cons_eq]
  | cons f files ih =>
    obtain ⟨p, d⟩ := f
    by_cases hp : p = place
    · rw [put, if_pos hp, lookup_cons_eq, lookup_cons_eq, hp]
      split <;> rfl
    · rw [put, if_neg hp, lookup_cons_eq, lookup_cons_eq, ih]
      by_cases hother : other = p
      · rw [if_pos hother, if_pos hother, if_neg fun h => hp (hother.symm.trans h)]
      · rw [if_neg hother, if_neg hother]

def withFile (t : Tree) (place : List String) (data : List UInt8) : Tree := { t with files := put place data t.files }

theorem mem_put {place : List String} {data : List UInt8} {files : List (List String × List UInt8)} {q : List String}
    (h : q ∈ files.map Prod.fst) : q ∈ (put place data files).map Prod.fst := by
  induction files with
  | nil => cases h
  | cons f files ih =>
    obtain ⟨p, d⟩ := f
    rw [put]
    split
    · simpa [*] using h
    · rcases List.mem_cons.mp h with rfl | h
      · exact List.mem_cons_self ..
      · exact List.mem_cons_of_mem _ (ih h)

theorem entry?_withFile (place : List String) (data : List UInt8) : Tree.entry? (t.withFile place data) place =
    some (.file data) := by
  rw [Tree.entry?, withFile, lookup_put, if_pos rfl]

theorem entry?_folder {other : List String} (h : t.entry? other = some .folder) (hne : other ≠ place) :
    Tree.entry? (t.withFile place data) other = some .folder := by
  rw [Tree.entry?] at h ⊢
  rw [withFile, lookup_put, if_neg hne]
  cases hlookup : t.files.lookup other with
  | some data =>
    rw [hlookup] at h
    cases h
  | none =>
    rw [hlookup] at h
    dsimp only at h ⊢
    split at h
    next hfolder =>
      rw [if_pos]
      simp only [Bool.or_eq_true] at hfolder ⊢
      refine hfolder.imp_right fun hfiles => ?_
      obtain ⟨q, hq, hprefix⟩ := List.any_eq_true.mp hfiles
      exact List.any_eq_true.mpr ⟨q, mem_put hq, hprefix⟩
    next => cases h

theorem follow_withFile {place start found : List String} {names : List String} (hplace : t.entry? place ≠ some .folder)
    (h : t.follow start names = .ok found) : (t.withFile place data).follow start names = .ok found := by
  induction names generalizing start with
  | nil => exact h
  | cons name names ih =>
    rw [follow] at h ⊢
    cases hentry : t.entry? start with
    | none =>
      rw [hentry] at h
      cases h
    | some e =>
      rw [hentry] at h
      cases e with
      | file data => cases h
      | folder =>
        have hne : start ≠ place := by
          rintro rfl
          exact hplace hentry
        rw [entry?_folder hentry hne]
        dsimp only at h ⊢
        split_ifs at h ⊢ with hlong hup
        · exact ih h
        · exact ih h

theorem write_ok_iff {p : Path} : write p data t = (.ok (), t') ↔
    ∃ place, t.place p = .ok place ∧ t.entry? place ≠ some .folder ∧ t' = t.withFile place data := by
  have hget : (get : Act Tree Trouble Tree) t = (.ok t, t) := rfl
  rw [write, Act.bind_ok hget]
  cases hplace : t.place p with
  | error trouble =>
    constructor
    · intro h
      cases h
    · rintro ⟨_, h, -⟩
      cases h
  | ok place =>
    have hlift : (Act.lift (.ok place) : Act Tree Trouble _) t = (.ok place, t) := rfl
    rw [Act.bind_ok hlift]
    by_cases hfolder : t.entry? place = some .folder
    · rw [hfolder]
      constructor
      · intro h
        cases h
      · rintro ⟨_, hsame, hne, -⟩
        cases hsame
        exact absurd hfolder hne
    · have hset {x : Act Tree Trouble Unit} (h : x t = (.ok (), t.withFile place data)) : x t = (.ok (), t') ↔
          ∃ found, Except.ok (ε := Trouble) place = .ok found ∧ t.entry? found ≠ some .folder ∧
          t' = t.withFile found data := by
        rw [h]
        constructor
        · intro h
          exact ⟨place, rfl, hfolder, (congrArg Prod.snd h).symm⟩
        · rintro ⟨_, hsame, -, rfl⟩
          cases hsame
          rfl
      cases hentry : t.entry? place with
      | none => exact hset rfl
      | some e =>
        cases e with
        | file old => exact hset rfl
        | folder => exact absurd hentry hfolder

theorem find_write {p : Path} (h : write p data t = (.ok (), t')) : t'.find p = .ok (.file data) := by
  obtain ⟨place, hplace, hentry, rfl⟩ := write_ok_iff.mp h
  have hfollow : (t.withFile place data).place p = .ok place := by
    rw [Tree.place] at hplace ⊢
    cases hcheck : checkText p with
    | error e =>
      rw [hcheck] at hplace
      cases hplace
    | ok u =>
      rw [hcheck] at hplace
      exact follow_withFile hentry hplace
  rw [find, hfollow]
  dsimp only [bind, Except.bind]
  rw [entry?_withFile]

theorem read_write {p : Path} (h : write p data t = (.ok (), t')) : t'.read p = .ok data := by
  rw [read, find_write h]
  rfl

theorem has_write {p : Path} (h : write p data t = (.ok (), t')) : t'.has p = .ok true := by
  rw [has, find_write h]

theorem write_any {p : Path} (h : write p data t = (.ok (), t')) (other : List UInt8) :
    ∃ t'', write p other t = (.ok (), t'') := by
  obtain ⟨place, hplace, hentry, -⟩ := write_ok_iff.mp h
  exact ⟨_, write_ok_iff.mpr ⟨place, hplace, hentry, rfl⟩⟩

theorem textOf?_encode {s : List Char} (h : '\r' ∉ s) : textOf? (Utf8.encode s) = some s := by
  rw [textOf?, Utf8.decode?_encode, Option.map_some, Text.unifyLineEnds_self h]

end Tree

end Playpen

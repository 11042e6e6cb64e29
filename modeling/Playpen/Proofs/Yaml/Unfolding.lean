import Playpen.Proofs.Yaml.Building
import Playpen.Proofs.Yaml.Reading

namespace Playpen.Yaml

namespace Unfold

section Steps

variable {σ α β : Type} {s s' : σ} {a : α}

theorem step {x : StateM σ α} {f : α → StateM σ β} (h : x s = (a, s')) : (x >>= f) s = f a s' := by
  show (match x s with | (a, s') => f a s') = _
  rw [h]

theorem mapM_steps {R : σ → Prop} {f : α → StateM σ β} {as : List α} {bs : List β}
    (h : List.Forall₂ (fun a b => ∀ s, R s → ∃ s', f a s = (b, s') ∧ R s') as bs) {s : σ} (hs : R s) :
    ∃ s', as.mapM f s = (bs, s') ∧ R s' := by
  induction h generalizing s with
  | nil => exact ⟨s, rfl, hs⟩
  | cons hab _ ih =>
    obtain ⟨s₁, hstep, hs₁⟩ := hab s hs
    obtain ⟨s₂, hall, hs₂⟩ := ih hs₁
    refine ⟨s₂, ?_, hs₂⟩
    rw [List.mapM_cons, step hstep, step hall]
    rfl

end Steps

def Recalls (vs : List Value) (memo : Array (Option Value)) : Prop :=
  ∀ (id : Nat) (v : Value), memo.getD id none = some v → vs[id]? = some v

variable {vs : List Value} {objects : Array (Option Object)} {memo : Array (Option Value)} {id : Nat} {v : Value}

theorem Recalls.set (h : Recalls vs memo) (hv : vs[id]? = some v) : Recalls vs (memo.set! id (some v)) := by
  intro c w hw
  by_cases hc : c = id
  · subst hc
    by_cases hsize : c < memo.size
    · rw [hv, ← show some v = some w by simpa [hsize] using hw]
    · simp [hsize] at hw
  · exact h c w (by simpa [hc, Ne.symm hc] using hw)

def Gives (vs : List Value) (work : Unfold (Knotted Value)) (v : Value) : Prop :=
  ∀ memo, Recalls vs memo → ∃ memo', work memo = ((v, false), memo') ∧ Recalls vs memo'

theorem all_unknotted {α : Type} (values : List α) : all (values.map fun v => (v, false)) = (values, false) := by
  simp [all, Function.comp_def]

theorem contents_list {value : NodeId → Unfold (Knotted Value)} {items : List NodeId} {values : List Value}
    (h : List.Forall₂ (fun c v => Gives vs (value c) v) items values) :
    Gives vs (contents value (.list items)) (.list values) := by
  intro memo hmemo
  obtain ⟨memo', hall, hmemo'⟩ := mapM_steps (List.forall₂_map_right_iff (f := fun v => (v, false)).mpr h) hmemo
  refine ⟨memo', ?_, hmemo'⟩
  rw [contents, step hall, all_unknotted]
  rfl

theorem contents_map {value : NodeId → Unfold (Knotted Value)} {items : List (Scalar × NodeId)}
    {entries : List (Scalar × Value)}
    (h : List.Forall₂ (fun p e => p.1 = e.1 ∧ Gives vs (value p.2) e.2) items entries) :
    Gives vs (contents value (.map items)) (.map entries) := by
  intro memo hmemo
  have hentries : List.Forall₂ (fun p e => ∀ memo, Recalls vs memo → ∃ memo', entry value p memo = (e, memo') ∧
      Recalls vs memo') items
      (entries.map fun e => (e, false)) := by
    refine List.forall₂_map_right_iff.mpr (h.imp fun p e hp memo hmemo => ?_)
    obtain ⟨memo', hvalue, hmemo'⟩ := hp.2 memo hmemo
    refine ⟨memo', ?_, hmemo'⟩
    rw [entry, step hvalue, hp.1]
    rfl
  obtain ⟨memo', hall, hmemo'⟩ := mapM_steps hentries hmemo
  refine ⟨memo', ?_, hmemo'⟩
  rw [contents, step hall, all_unknotted]
  rfl

theorem value_gives (h : Complete vs objects) {free fuel : Nat} {above : List NodeId} (hv : vs[id]? = some v)
    (hreached : (objects.getD id none).isSome = true) (habove : ∀ a ∈ above, a < id) (hfuel : vs.length < fuel + id) :
    Gives vs (value objects free above fuel id) v := by
  induction fuel generalizing free above id v with
  | zero =>
    have := (List.getElem?_eq_some_iff.mp hv).1
    omega
  | succ fuel ih =>
    intro memo hmemo
    have hget : (get : Unfold _) memo = (memo, memo) := rfl
    obtain ⟨o, ho⟩ := Option.isSome_iff_exists.mp hreached
    rw [value, step hget, ho]
    cases hrecalled : memo.getD id none with
    | some w =>
      obtain rfl := Option.some.inj ((hmemo id w hrecalled).symm.trans hv)
      exact ⟨memo, rfl, hmemo⟩
    | none =>
      have hfresh : above.contains id = false := by
        simpa using fun hmem => absurd (habove id hmem) (lt_irrefl id)
      -- What the object holds comes behind it, so no node is met again below itself.
      have hdeeper (a : NodeId) (ha : a ∈ if free = 0 then id :: above else above) : a ≤ id := by
        split at ha
        · exact (List.mem_cons.mp ha).elim le_of_eq fun ha => le_of_lt (habove a ha)
        · exact le_of_lt (habove a ha)
      obtain ⟨hshows, hparts⟩ := h id v o hv ho
      have hpart {c : Nat} {w : Value} (hc : c ∈ o.parts) (hlt : id < c) (hw : vs[c]? = some w) :
          Gives vs (value objects (free - 1) (if free = 0 then id :: above else above) fuel c) w :=
        ih hw (hparts c hc) (fun a ha => lt_of_le_of_lt (hdeeper a ha) hlt) (by omega)
      have hcontents : Gives vs (contents
          (value objects (free - 1) (if free = 0 then id :: above else above) fuel) o) v := by
        cases hshows with
        | plain s => exact fun memo hmemo => ⟨memo, rfl, hmemo⟩
        | list hitems =>
          refine contents_list (((List.forall₂_and_left _ _).mpr ⟨fun _ hc => hc, hitems⟩).imp fun c w hc => ?_)
          exact hpart hc.1 hc.2.1 hc.2.2
        | map hentries =>
          refine contents_map (((List.forall₂_and_left _ _).mpr ⟨fun _ hp => hp, hentries⟩).imp fun p e hp =>
            ⟨hp.2.1, ?_⟩)
          exact hpart (List.mem_map_of_mem hp.1) hp.2.2.1 hp.2.2.2
      obtain ⟨memo', hwork, hmemo'⟩ := hcontents memo hmemo
      refine ⟨memo'.set! id (some v), ?_, hmemo'.set hv⟩
      show (if above.contains id = true then _ else _ : Unfold _) memo = _
      rw [hfresh, if_neg Bool.false_ne_true]
      exact (step hwork).trans rfl

end Unfold

theorem parse_record {data : Utf8.Bytes} {ts : List Token} {es : List (String × Value)} {ks : List Token.Kind}
    (htokens : tokens (.ofBytes data) = (ts, none))
    (hkinds : ts.map (·.kind) = .blockMapping :: ks ++ [.blockEnd, .streamEnd])
    (hks : Read.ParsesEntries es ks) (hdistinct : (es.map Prod.fst).Nodup)
    (hdepth : (record es).depth ≤ Read.maxDepth) :
    parse data = .ok (record es) := by
  obtain ⟨r, vs, hread, hgrows⟩ := Read.document_reads hks hdistinct hdepth hkinds
      (show 4 * ts.length < 8 * ts.length + 16 by omega)
  have hlabelled := hgrows.labelled
  have hroot : (record es :: vs)[0]? = some (record es) := rfl
  obtain ⟨objects, hobjects, hcomplete, hreached⟩ := objects_ok hlabelled hroot
  have hempty : Unfold.Recalls (record es :: vs) (Array.replicate r.nodes.size none) :=
    fun id v hv => by simp [Array.getD] at hv
  have hgives : Unfold.Gives (record es :: vs) (Unfold.value objects 2 [] (r.nodes.size + 3) 0) (record es) :=
    Unfold.value_gives hcomplete hroot hreached nofun (by rw [hlabelled.size]; omega)
  obtain ⟨memo, hvalue, -⟩ := hgives _ hempty
  have hnodes : Nodes.ofSource (.ofBytes data) = .ok (r.nodes, some 0) := by
    rw [Nodes.ofSource, htokens]
    show (Read.document _ { tokens := ts, fault := none } >>= _) = _
    rw [hread]
    rfl
  rw [parse, hnodes]
  show (r.nodes.objects 0 >>= _) = _
  rw [hobjects]
  show Except.ok ((Unfold.value objects 2 [] (r.nodes.size + 3) 0).run _).1.1 = _
  rw [StateT.run, hvalue]

end Playpen.Yaml

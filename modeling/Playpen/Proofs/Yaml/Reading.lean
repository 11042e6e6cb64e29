import Playpen.Proofs.Yaml.Nodes

namespace Playpen.Yaml.Read

variable {r : Reader} {t : Token} {ts : List Token} {depth fuel : Nat}

def ahead (r : Reader) (ts : List Token) (ns : Nodes) : Reader := { r with tokens := ts, nodes := ns }

variable {ns ns' : Nodes}

theorem run_peek : peek (ahead r (t :: ts) ns) = .ok (t, ahead r (t :: ts) ns) := rfl

theorem run_take : take (ahead r (t :: ts) ns) = .ok (t, ahead r ts ns) := rfl

theorem run_kind : kind (ahead r (t :: ts) ns) = .ok (t.kind, ahead r (t :: ts) ns) := rfl

theorem nodeUnless_eq {place : Place} {ends : Token.Kind → Bool} {m : Mark} (h : ends t.kind = false) :
    nodeUnless place ends m depth (fuel + 1) (ahead r (t :: ts) ns) = node place depth fuel (ahead r (t :: ts) ns) := by
  rw [nodeUnless, step_ok run_kind, h]
  rfl

theorem node_scalar (place : Place) {text : List Char} {plain : Bool} (h : t.kind = .scalar text plain) :
    node place depth (fuel + 1) (ahead r (t :: ts) ns) =
      .ok (ns.size, ahead r ts (ns.push ⟨scalarTag none plain text, t.start, .scalar text⟩)) := by
  obtain ⟨kind, start, stop⟩ := t
  subst h
  rw [node]
  rfl

theorem collection_eq {tag : String} {start : Mark} {read : Read Content} {content : Content} {rest : List Token}
    (hdepth : depth < maxDepth)
    (h : read (ahead r ts (ns.push ⟨tag, start, .sequence []⟩)) = .ok (content, ahead r rest ns')) :
    collection depth none tag start read (ahead r ts ns) =
    .ok (ns.size, ahead r rest (ns'.setContent ns.size content)) := by
  have hnamed : named none start (add tag start (.sequence [])) (ahead r ts ns) =
      .ok (ns.size, ahead r ts (ns.push ⟨tag, start, .sequence []⟩)) := rfl
  rw [collection, step_ok hnamed, if_neg (by omega)]
  show (read >>= _) _ = _
  rw [step_ok h]
  rfl

theorem node_mapping {place : Place} (hplace : place ≠ .flow) (h : t.kind = .blockMapping) :
    node place depth (fuel + 1) (ahead r (t :: ts) ns) = collection depth none mapTag t.start (do
      let _ ← take
      .mapping <$> blockEntries t.start (depth + 1) fuel) (ahead r (t :: ts) ns) := by
  obtain ⟨kind, start, stop⟩ := t
  subst h
  rw [node]
  cases place with
  | flow => exact absurd rfl hplace
  | block => rfl
  | mappingPart => rfl

theorem node_items (h : t.kind = .blockEntry) : node .mappingPart depth (fuel + 1) (ahead r (t :: ts) ns) =
    collection depth none seqTag t.start (.sequence <$> indentlessItems (depth + 1) fuel) (ahead r (t :: ts) ns) := by
  obtain ⟨kind, start, stop⟩ := t
  subst h
  rw [node]
  rfl

theorem node_brackets {place : Place} (h : t.kind = .flowSequence) :
    node place depth (fuel + 1) (ahead r (t :: ts) ns) =
    collection depth none seqTag t.start (.sequence <$> flowItems t.start true (depth + 1) fuel)
    (ahead r (t :: ts) ns) := by
  obtain ⟨kind, start, stop⟩ := t
  subst h
  rw [node]
  rfl

structure Parses (v : Value) (ks : List Token.Kind) : Prop where
  head : ∃ k ks', ks = k :: ks' ∧ endsBlockKey k = false
  reads {r : Reader} {ts rest : List Token} {t : Token} {depth fuel : Nat} (ns : Nodes) (hkinds : ts.map (·.kind) = ks)
    (hnext : t.kind ≠ .blockEntry) (hdepth : depth + v.depth ≤ maxDepth) (hfuel : 4 * ts.length ≤ fuel) :
    ∃ ns' vs, node .mappingPart depth fuel (ahead r (ts ++ t :: rest) ns) = .ok (ns.size, ahead r (t :: rest) ns') ∧
      Grows ns ns' (v :: vs)

theorem exists_token {k : Token.Kind} {ks : List Token.Kind} (h : ts.map (·.kind) = k :: ks) :
    ∃ t ts', ts = t :: ts' ∧ t.kind = k ∧ ts'.map (·.kind) = ks := by
  obtain ⟨t, ts', rfl, hk, hks⟩ := List.map_eq_cons_iff.mp h
  exact ⟨t, ts', rfl, hk, hks⟩

theorem scalar_kind {k : Token.Kind} {s : Scalar} (h : k.Means s) : ∃ text plain, k = .scalar text plain := by
  obtain ⟨text, plain, _, rfl, -⟩ := h
  exact ⟨text, plain, rfl⟩

theorem Parses.scalar {k : Token.Kind} {s : Scalar} (hk : k.Means s) : Parses (.scalar s) [k] := by
  obtain ⟨text, plain, rfl⟩ := scalar_kind hk
  refine ⟨⟨_, _, rfl, rfl⟩, fun ns hkinds _ _ hfuel => ?_⟩
  obtain ⟨t, ts, rfl, hkind, hkinds⟩ := exists_token hkinds
  obtain rfl := List.map_eq_nil_iff.mp hkinds
  obtain ⟨fuel, rfl⟩ : ∃ n, _ = n + 1 := ⟨_ - 1, (Nat.sub_add_cancel (Nat.le_trans (by simp) hfuel)).symm⟩
  exact ⟨_, [], node_scalar .mappingPart hkind, .scalar hk t.start⟩

theorem Parses.brackets : Parses (.list []) [.flowSequence, .flowSequenceEnd] := by
  refine ⟨⟨_, _, rfl, rfl⟩, fun {r ts rest t depth fuel} ns hkinds _ hdepth hfuel => ?_⟩
  obtain ⟨t₁, ts, rfl, hopen, hkinds⟩ := exists_token hkinds
  obtain ⟨t₂, ts, rfl, hclose, hkinds⟩ := exists_token hkinds
  obtain rfl := List.map_eq_nil_iff.mp hkinds
  simp only [List.length_cons, List.length_nil] at hfuel
  obtain ⟨fuel, rfl⟩ : ∃ n, fuel = n + 2 := ⟨fuel - 2, by omega⟩
  have hitems (ns : Nodes) : flowItems t₁.start true (depth + 1) (fuel + 1) (ahead r (t₁ :: t₂ :: t :: rest) ns) =
      .ok ([], ahead r (t :: rest) ns) := by
    obtain ⟨kind, start, stop⟩ := t₂
    subst hclose
    rw [flowItems]
    rfl
  have hread (ns : Nodes) : (Content.sequence <$> flowItems t₁.start true (depth + 1) (fuel + 1))
      (ahead r (t₁ :: t₂ :: t :: rest) ns) =
      .ok (.sequence [], ahead r (t :: rest) ns) := step_map (hitems ns)
  refine ⟨_, [], (node_brackets hopen).trans (collection_eq (by rw [Value.depth] at hdepth; omega) (hread _)),
    .collection (.nil _) ?_⟩
  exact fun us hus ns'' hnode => .list hnode .nil

theorem indentlessItems_reads (r : Reader) (depth : Nat) (rest : List Token) (ns : Nodes)
    {ps : List (Scalar × Token.Kind)} (hps : ∀ p ∈ ps, p.2.Means p.1)
    (hkinds : ts.map (·.kind) = ps.flatMap fun p => [.blockEntry, p.2]) (hnext : t.kind ≠ .blockEntry)
    (hfuel : 2 * ts.length < fuel) :
    ∃ ns' ids, indentlessItems depth fuel (ahead r (ts ++ t :: rest) ns) = .ok (ids, ahead r (t :: rest) ns') ∧
      Grows ns ns' (ps.map fun p => .scalar p.1) ∧
      List.Forall₂ (Refers ns.size (ps.map fun p => .scalar p.1)) ids (ps.map fun p => .scalar p.1) := by
  induction ps generalizing ts ns fuel with
  | nil =>
    obtain rfl := List.map_eq_nil_iff.mp hkinds
    obtain ⟨fuel, rfl⟩ : ∃ n, fuel = n + 1 := ⟨fuel - 1, by omega⟩
    refine ⟨ns, [], ?_, .nil ns, .nil⟩
    rw [indentlessItems, List.nil_append, step_ok run_peek, if_neg hnext]
    rfl
  | cons p ps ih =>
    obtain ⟨hp, hps⟩ := List.forall_mem_cons.mp hps
    obtain ⟨text, plain, hk⟩ := scalar_kind hp
    obtain ⟨t₁, ts, rfl, hmark, hkinds⟩ := exists_token hkinds
    obtain ⟨t₂, ts, rfl, hkind, hkinds⟩ := exists_token hkinds
    simp only [List.length_cons] at hfuel
    obtain ⟨fuel, rfl⟩ : ∃ n, fuel = n + 3 := ⟨fuel - 3, by omega⟩
    rw [hk] at hp
    have hgrow : Grows ns (ns.push ⟨scalarTag none plain text, t₂.start, .scalar text⟩) [.scalar p.1] :=
      .scalar hp t₂.start
    obtain ⟨ns', ids, hread, hgrows, hrefers⟩ :=
      ih (ns.push ⟨scalarTag none plain text, t₂.start, .scalar text⟩) hps hkinds
      (show 2 * ts.length < fuel + 2 by omega)
    have hitem : nodeUnless .block endsIndentless t₁.stop depth (fuel + 2) (ahead r (t₂ :: (ts ++ t :: rest)) ns) =
        .ok (ns.size, ahead r (ts ++ t :: rest) (ns.push ⟨scalarTag none plain text, t₂.start, .scalar text⟩)) := by
      rw [nodeUnless_eq (by rw [hkind, hk]; rfl)]
      exact node_scalar .block (hkind.trans hk)
    refine ⟨ns', ns.size :: ids, ?_, hgrow.append hgrows, .cons (Refers.head ..) ?_⟩
    · rw [indentlessItems, List.cons_append, List.cons_append, step_ok run_peek, if_pos hmark, step_ok run_take,
        step_ok hitem, step_ok hread]
      rfl
    · rw [Array.size_push] at hrefers
      exact hrefers.imp fun c v h => Refers.right (show Refers (ns.size + [Value.scalar p.1].length) _ c v from h)

theorem Parses.items {ps : List (Scalar × Token.Kind)} (hps : ∀ p ∈ ps, p.2.Means p.1) (hne : ps ≠ []) :
    Parses (.list ((ps.map Prod.fst).map .scalar)) (ps.flatMap fun p => [.blockEntry, p.2]) := by
  obtain ⟨p, ps', rfl⟩ := List.exists_cons_of_ne_nil hne
  refine ⟨⟨_, _, rfl, rfl⟩, fun {r ts rest t depth fuel} ns hkinds hnext hdepth hfuel => ?_⟩
  obtain ⟨t₁, ts', rfl, hmark, -⟩ := exists_token hkinds
  simp only [List.length_cons] at hfuel
  obtain ⟨fuel, rfl⟩ : ∃ n, fuel = n + 1 := ⟨fuel - 1, by omega⟩
  obtain ⟨ns', ids, hread, hgrows, hrefers⟩ := indentlessItems_reads r (depth + 1) rest
    (ns.push ⟨seqTag, t₁.start, .sequence []⟩) hps hkinds hnext
    (show 2 * (t₁ :: ts').length < fuel by rw [List.length_cons]; omega)
  refine ⟨_, _, (node_items hmark).trans (collection_eq (by rw [Value.depth] at hdepth; omega) (step_map hread)),
    hgrows.collection ?_⟩
  intro us hus ns'' hnode
  rw [List.map_map]
  refine .list hnode (hrefers.imp fun c v h => ?_)
  rw [Array.size_push, ← hus] at h
  rw [← hus]
  exact h.behind

theorem means_name {name : String} (hname : IsName name) : (Token.Kind.scalar name.toList true).Means (.text name) :=
  ⟨name.toList, true, "str", rfl, hname.text, by decide, fun _ _ => by
    rw [Schema.value, String.ofList_toList]
    all_goals decide⟩

inductive ParsesEntries : List (String × Value) → List Token.Kind → Prop
  | nil : ParsesEntries [] []
  | cons {name : String} {v : Value} {es : List (String × Value)} {ks kss : List Token.Kind} (hname : IsName name)
    (hv : Parses v ks) (h : ParsesEntries es kss) :
    ParsesEntries ((name, v) :: es) ([.key, .scalar name.toList true, .value] ++ ks ++ kss)

theorem ParsesEntries.next {es : List (String × Value)} {ks : List Token.Kind} (h : ParsesEntries es ks)
    (hkinds : ts.map (·.kind) = ks) (hend : t.kind = .blockEnd) (rest : List Token) :
    ∃ t' rest', ts ++ t :: rest = t' :: rest' ∧ t'.kind ≠ .blockEntry := by
  cases h with
  | nil =>
    obtain rfl := List.map_eq_nil_iff.mp hkinds
    exact ⟨t, rest, rfl, by rw [hend]; decide⟩
  | cons hname hv h =>
    obtain ⟨t', ts, rfl, hkind, -⟩ := exists_token hkinds
    exact ⟨t', _, rfl, by rw [hkind]; decide⟩

def RefersPair (base : Nat) (vs : List Value) (p : NodeId × NodeId) (e : String × Value) : Prop :=
  Refers base vs p.1 (.text e.1) ∧ Refers base vs p.2 e.2

theorem blockEntries_reads (r : Reader) (start : Mark) {depth fuel : Nat} (rest : List Token) (ns : Nodes)
    {es : List (String × Value)}
    {ks : List Token.Kind} (h : ParsesEntries es ks) (hkinds : ts.map (·.kind) = ks) (hend : t.kind = .blockEnd)
    (hdepth : ∀ e ∈ es, depth + e.2.depth ≤ maxDepth) (hfuel : 4 * ts.length < fuel) :
    ∃ ns' ids vs, blockEntries start depth fuel (ahead r (ts ++ t :: rest) ns) = .ok (ids, ahead r rest ns') ∧
    Grows ns ns' vs ∧
      List.Forall₂ (RefersPair ns.size vs) ids es := by
  induction h generalizing ts ns fuel with
  | nil =>
    obtain rfl := List.map_eq_nil_iff.mp hkinds
    obtain ⟨fuel, rfl⟩ : ∃ n, fuel = n + 1 := ⟨fuel - 1, by omega⟩
    refine ⟨ns, [], [], ?_, .nil ns, .nil⟩
    rw [blockEntries, List.nil_append, step_ok run_peek, hend]
    rfl
  | @cons name v es ks kss hname hv h ih =>
    obtain ⟨hdv, hdes⟩ := List.forall_mem_cons.mp hdepth
    obtain ⟨t₁, ts, rfl, hkey, hkinds⟩ := exists_token hkinds
    obtain ⟨t₂, ts, rfl, hscalar, hkinds⟩ := exists_token hkinds
    obtain ⟨t₃, ts, rfl, hvalue, hkinds⟩ := exists_token hkinds
    obtain ⟨tv, tr, rfl, hkv, hkr⟩ := List.map_eq_append_iff.mp hkinds
    simp only [List.length_cons, List.length_append] at hfuel
    obtain ⟨fuel, rfl⟩ : ∃ n, fuel = n + 4 := ⟨fuel - 4, by omega⟩
    obtain ⟨t', rest', hnext, hother⟩ := h.next hkr hend rest
    obtain ⟨ns₂, vs, hread, hgrows⟩ := hv.reads (r := r)
      (ns.push ⟨scalarTag none true name.toList, t₂.start, .scalar name.toList⟩) hkv hother hdv
      (show 4 * tv.length ≤ fuel + 1 by omega)
    obtain ⟨ns₃, ids, vs', hread', hgrows', hrefers⟩ := ih ns₂ hkr hdes (show 4 * tr.length < fuel + 3 by omega)
    -- The key gets the next number, and the value the one after it with all that it holds behind.
    have hfirst : nodeUnless .mappingPart endsBlockKey t₁.stop depth (fuel + 3)
        (ahead r (t₂ :: t₃ :: (tv ++ (tr ++ t :: rest))) ns) =
        .ok (ns.size, ahead r (t₃ :: (tv ++ (tr ++ t :: rest)))
          (ns.push ⟨scalarTag none true name.toList, t₂.start, .scalar name.toList⟩)) := by
      rw [nodeUnless_eq (by rw [hscalar]; rfl)]
      exact node_scalar .mappingPart hscalar
    have hsecond : blockValue depth (fuel + 3) (ahead r (t₃ :: (tv ++ (tr ++ t :: rest)))
        (ns.push ⟨scalarTag none true name.toList, t₂.start, .scalar name.toList⟩)) =
        .ok (ns.size + 1, ahead r (tr ++ t :: rest) ns₂) := by
      obtain ⟨k, ks', rfl, hends⟩ := hv.head
      obtain ⟨t₄, ts, rfl, hkind, -⟩ := exists_token hkv
      rw [blockValue, step_ok run_peek, if_pos hvalue, step_ok run_take, List.cons_append,
        nodeUnless_eq (by rw [hkind]; exact hends), hnext]
      rw [Array.size_push] at hread
      exact hread
    refine ⟨ns₃, (ns.size, ns.size + 1) :: ids, _, ?_, (Grows.scalar (means_name hname) t₂.start).append
      (hgrows.append hgrows'), ?_⟩
    · rw [blockEntries, List.cons_append, List.cons_append, List.cons_append, List.append_assoc, step_ok run_peek, hkey]
      refine (step_ok run_take).trans ((step_ok hfirst).trans ((step_ok hsecond).trans ((step_ok hread').trans rfl)))
    · have hsize : ns₂.size = ns.size + ([Value.text name] ++ v :: vs).length := by
        rw [hgrows.size, Array.size_push]
        simp only [List.length_append, List.length_cons, List.length_nil]
        omega
      rw [hsize] at hrefers
      rw [← List.append_assoc]
      refine .cons ⟨(Refers.head ns.size _ _).left vs', ?_⟩ (hrefers.imp fun p e hp => ⟨hp.1.right, hp.2.right⟩)
      exact (Refers.right (Refers.head (ns.size + 1) v vs)).left vs'

theorem record_reads (r : Reader) {depth fuel : Nat} (rest : List Token) (ns : Nodes) {es : List (String × Value)}
    {ks : List Token.Kind} (h : ParsesEntries es ks) {place : Place} (hplace : place ≠ .flow)
    (hdistinct : (es.map Prod.fst).Nodup)
    (hkinds : ts.map (·.kind) = .blockMapping :: ks ++ [.blockEnd]) (hdepth : depth + (record es).depth ≤ maxDepth)
    (hfuel : 4 * ts.length ≤ fuel) :
    ∃ ns' vs, node place depth fuel (ahead r (ts ++ rest) ns) = .ok (ns.size, ahead r rest ns') ∧
    Grows ns ns' (record es :: vs) := by
  obtain ⟨t₁, ts, rfl, hopen, hkinds⟩ := exists_token hkinds
  obtain ⟨te, tc, rfl, hentries, hclose⟩ := List.map_eq_append_iff.mp hkinds
  obtain ⟨t₂, ts, rfl, hend, hnil⟩ := exists_token hclose
  obtain rfl := List.map_eq_nil_iff.mp hnil
  simp only [List.length_cons, List.length_append, List.length_nil] at hfuel
  obtain ⟨fuel, rfl⟩ : ∃ n, fuel = n + 1 := ⟨fuel - 1, by omega⟩
  rw [record, Value.depth] at hdepth
  have hdeeper : ∀ e ∈ es, depth + 1 + e.2.depth ≤ maxDepth := fun e he => by
    have := Value.depth_le_deepestEntry he
    omega
  obtain ⟨ns', ids, vs, hread, hgrows, hrefers⟩ := blockEntries_reads r t₁.start rest
      (ns.push ⟨mapTag, t₁.start, .sequence []⟩) h
    hentries hend hdeeper (show 4 * te.length < fuel by omega)
  have htokens : t₁ :: (te ++ [t₂]) ++ rest = t₁ :: (te ++ t₂ :: rest) := by simp
  rw [htokens]
  refine ⟨_, vs, (node_mapping hplace hopen).trans
    (collection_eq (by omega) ((step_ok run_take).trans (step_map hread))),
    hgrows.collection ?_⟩
  intro us hus ns'' hnode
  refine .record hnode hdistinct (hrefers.imp fun p e hp => ?_)
  rw [Array.size_push, ← hus] at hp
  rw [← hus]
  exact ⟨hp.1.behind, hp.2.behind⟩

theorem Parses.record {es : List (String × Value)} {ks : List Token.Kind} (h : ParsesEntries es ks)
    (hdistinct : (es.map Prod.fst).Nodup) : Parses (record es) (.blockMapping :: ks ++ [.blockEnd]) :=
  ⟨⟨_, _, rfl, rfl⟩, fun ns hkinds _ hdepth hfuel => record_reads _ _ ns h nofun hdistinct hkinds hdepth hfuel⟩

theorem marked_end (hend : t.kind = .streamEnd) (hfuel : 0 < fuel) :
    marked fuel (ahead r [t] ns) = .ok (none, ahead r [t] ns) := by
  obtain ⟨kind, start, stop⟩ := t
  subst hend
  obtain ⟨fuel, rfl⟩ : ∃ n, fuel = n + 1 := ⟨fuel - 1, by omega⟩
  have hskip : skipDocumentEnds (fuel + 1) (ahead r [⟨.streamEnd, start, stop⟩] ns) =
      .ok ((), ahead r [⟨.streamEnd, start, stop⟩] ns) := rfl
  rw [marked, step_ok hskip]
  rfl

theorem document_reads {es : List (String × Value)} {ks : List Token.Kind} (h : ParsesEntries es ks)
    (hdistinct : (es.map Prod.fst).Nodup) (hdepth : (record es).depth ≤ maxDepth)
    (hkinds : ts.map (·.kind) = .blockMapping :: ks ++ [.blockEnd, .streamEnd]) (hfuel : 4 * ts.length < fuel) :
    ∃ r' vs, document fuel { tokens := ts, fault := none } = .ok (some 0, r') ∧
    Grows #[] r'.nodes (Playpen.record es :: vs) := by
  obtain ⟨tm, te, rfl, hmapping, hlast⟩ := List.map_eq_append_iff.mp
    (show ts.map (·.kind) = (.blockMapping :: ks ++ [.blockEnd]) ++ [.streamEnd] by rw [hkinds]; simp)
  obtain ⟨t, te, rfl, hend, hnil⟩ := exists_token hlast
  obtain rfl := List.map_eq_nil_iff.mp hnil
  rw [List.length_append] at hfuel
  obtain ⟨ns', vs, hread, hgrows⟩ := record_reads { tokens := [], fault := none, handles := standardHandles } [t] #[] h
    (show Place.block ≠ .flow by decide) hdistinct hmapping (by rwa [Nat.zero_add]) (show 4 * tm.length ≤ fuel by omega)
  refine ⟨ahead { tokens := [], fault := none, handles := standardHandles } [t] ns', vs, ?_, hgrows⟩
  obtain ⟨t₁, ts, rfl, hopen, -⟩ := exists_token hmapping
  have hpeek : peek { tokens := t₁ :: ts ++ [t], fault := none } =
      .ok (t₁, { tokens := t₁ :: ts ++ [t], fault := none }) := rfl
  have hhandles : (modify fun r => { r with handles := standardHandles } : Read Unit)
      { tokens := t₁ :: ts ++ [t], fault := none } =
        .ok ((), ahead { tokens := [], fault := none, handles := standardHandles } (t₁ :: ts ++ [t]) #[]) := rfl
  have htake : takeIf .documentEnd (ahead { tokens := [], fault := none, handles := standardHandles } [t] ns') =
      .ok (false, ahead { tokens := [], fault := none, handles := standardHandles } [t] ns') := by
    rw [takeIf, step_ok run_kind, hend]
    rfl
  have hmarked : marked fuel (ahead { tokens := [], fault := none, handles := standardHandles } [t] ns') =
      .ok (none, ahead { tokens := [], fault := none, handles := standardHandles } [t] ns') :=
      marked_end hend (by omega)
  rw [document, step_ok hpeek, hopen]
  refine (step_ok hhandles).trans ((step_ok hread).trans ?_)
  rw [pure_bind]
  refine (step_ok htake).trans ?_
  exact (step_ok hmarked).trans rfl

end Playpen.Yaml.Read

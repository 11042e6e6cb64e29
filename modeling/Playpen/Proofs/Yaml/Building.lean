import Playpen.Proofs.Yaml.Nodes
/-!
The objects of nodes that stand for data, and their values. What a node holds comes behind it, so collections
that are filled later have greater numbers, and no object is inside itself.
-/
namespace Playpen.Yaml

structure Labelled (ns : Nodes) (vs : List Value) : Prop where
  size : ns.size = vs.length
  stands (id : Nat) (v : Value) (h : vs[id]? = some v) : Stands ns vs id v

theorem Grows.labelled {ns : Nodes} {vs : List Value} (h : Grows #[] ns vs) : Labelled ns vs :=
  ⟨by simpa using h.size, fun id v hv => by simpa using h.stands [] rfl id v hv⟩

theorem Labelled.scalarTag {ns : Nodes} {vs : List Value} (h : Labelled ns vs) {id : Nat} {s : Scalar}
    (hv : vs[id]? = some (.scalar s)) : ∃ name ∈ Build.scalarNames, (ns.node id).tag = core name := by
  cases h.stands id _ hv with
  | scalar hnode hname hvalue => exact ⟨_, hname, by rw [hnode]⟩

namespace Merging

variable {ns : Nodes}

theorem takeMark?_none {entries : List (NodeId × NodeId)} (h : ∀ e ∈ entries, (ns.node e.1).tag ≠ core "merge") :
    takeMark? ns entries = none := by
  induction entries with
  | nil => rfl
  | cons e entries ih =>
    obtain ⟨he, hentries⟩ := List.forall_mem_cons.mp h
    rw [takeMark?, if_neg he, ih hentries]
    rfl

theorem setContent_self (id : Nat) : ns.setContent id (ns.node id).content = ns := by
  apply Array.ext
  · exact size_setContent _
  · intro i hi hi'
    by_cases hid : i = id
    · subst hid
      simp [Nodes.setContent, Nodes.node, Array.getD, hi', Array.getElem_modify]
    · simp [Nodes.setContent, Array.getElem_modify, Ne.symm hid]

theorem foldl_setTextTag {entries : List (NodeId × NodeId)} (h : ∀ e ∈ entries, (ns.node e.1).tag ≠ core "value") :
    entries.foldl (fun ns e => setTextTag ns e.1) ns = ns := by
  induction entries with
  | nil => rfl
  | cons e entries ih =>
    obtain ⟨he, hentries⟩ := List.forall_mem_cons.mp h
    rw [List.foldl_cons, setTextTag, if_neg he, ih hentries]

theorem flatten_ok {id : Nat} {entries : List (NodeId × NodeId)} (hentries : (ns.node id).content = .mapping entries)
    (h : ∀ e ∈ entries, ∃ name ∈ Build.scalarNames, (ns.node e.1).tag = core name) (depth : Nat) :
    flatten (depth + 1) id ns = .ok ((), ns) := by
  have hnode : ns.entries id = entries := by rw [Nodes.entries, hentries]
  have hother : ∀ name ∈ Build.scalarNames, core name ≠ core "merge" ∧ core name ≠ core "value" := by decide
  have hkeys (e : NodeId × NodeId) (he : e ∈ entries) :
      (ns.node e.1).tag ≠ core "merge" ∧ (ns.node e.1).tag ≠ core "value" := by
    obtain ⟨name, hname, htag⟩ := h e he
    rw [htag]
    exact hother name hname
  have hmarks : takeMark? ns entries = none := takeMark?_none fun e he => (hkeys e he).1
  have hget : (get : Merging Nodes) ns = .ok (ns, ns) := rfl
  have htake (fuel : Nat) : takeMarks (flatten depth) (ns.node id).start id fuel ns = .ok ([], ns) := by
    cases fuel with
    | zero => rfl
    | succ fuel =>
      rw [takeMarks, step_ok hget, hnode, hmarks]
      rfl
  have hsame : ns.setContent id (.mapping ([] ++ entries)) = ns := by
    rw [List.nil_append, ← hentries, setContent_self]
  rw [flatten, step_ok hget, step_ok (htake _)]
  show Except.ok ((), Nodes.setContent id (.mapping ([] ++ ns.entries id)) (List.foldl _ ns (ns.entries id))) = _
  rw [hnode, foldl_setTextTag fun e he => (hkeys e he).2, hsame]

end Merging

inductive Object.IsBlank : Value → Object → Prop
  | list (values : List Value) : IsBlank (.list values) (.list [])
  | record (entries : List (Scalar × Value)) : IsBlank (.map entries) (.map [])

def Object.parts : Object → List NodeId
  | .list items => items
  | .map entries => entries.map Prod.snd
  | _ => []

inductive Object.Shows (vs : List Value) (id : Nat) : Value → Object → Prop
  | plain (s : Scalar) : Shows vs id (.scalar s) (.plain s)
  | list {items : List NodeId} {values : List Value}
      (h : List.Forall₂ (fun c v => id < c ∧ vs[c]? = some v) items values) :
    Shows vs id (.list values) (.list items)
  | map {items : List (Scalar × NodeId)} {entries : List (Scalar × Value)}
    (h : List.Forall₂ (fun p e => p.1 = e.1 ∧ id < p.2 ∧ vs[p.2]? = some e.2) items entries) :
    Shows vs id (.map entries) (.map items)

namespace Build

open Object (IsBlank Shows)

def object? (b : Builder) (id : Nat) : Option Object := b.objects.getD id none

def Reached (b : Builder) (id : Nat) : Prop := (object? b id).isSome = true

structure Builds (ns : Nodes) (vs : List Value) (todo : List Nat) (b : Builder) : Prop where
  nodes : b.nodes = ns
  size : b.objects.size = ns.size
  object {id : Nat} {v : Value} {o : Object} (hv : vs[id]? = some v) (ho : object? b id = some o) :
    (IsBlank v o ∧ (id ∈ todo ∨ id ∈ b.made)) ∨ (Shows vs id v o ∧ ∀ c ∈ o.parts, Reached b c)
  waits {id : Nat} (h : id ∈ todo ∨ id ∈ b.made) : ∃ v, vs[id]? = some v ∧ (∀ s, v ≠ .scalar s) ∧ Reached b id

structure Goes (b b' : Builder) (ids : List Nat) : Prop where
  keeps (c : Nat) (h : Reached b c) : Reached b' c
  reached : ∀ c ∈ ids, Reached b' c
  made : ∀ c ∈ b'.made, c ∈ b.made ∨ c ∈ ids

theorem Goes.nil (b : Builder) : Goes b b [] := ⟨fun _ => id, nofun, fun _ => .inl⟩

theorem Goes.append {b b' b'' : Builder} {ids ids' : List Nat} (h : Goes b b' ids) (h' : Goes b' b'' ids') :
    Goes b b'' (ids ++ ids') where
  keeps c hc := h'.keeps c (h.keeps c hc)
  reached c hc := by
    rcases List.mem_append.mp hc with hc | hc
    · exact h'.keeps c (h.reached c hc)
    · exact h'.reached c hc
  made c hc := by
    rw [List.mem_append, ← or_assoc]
    exact (h'.made c hc).imp_left (h.made c)

theorem Goes.of_reached {b : Builder} {id : Nat} (h : Reached b id) : Goes b b [id] :=
  ⟨fun _ hc => hc, fun _ hc => List.mem_singleton.mp hc ▸ h, fun _ => .inl⟩

variable {ns : Nodes} {vs : List Value} {todo todo' made' : List Nat} {b : Builder} {id : Nat} {v : Value} {o : Object}

def setObject (b : Builder) (id : Nat) (o : Object) (made : List Nat) : Builder :=
  { b with objects := b.objects.set! id (some o), made }

theorem object?_setObject (h : id < b.objects.size) (c : Nat) :
    object? (setObject b id o made') c = if c = id then some o else object? b c := by
  by_cases hc : c = id
  · subst hc
    simp [object?, setObject, h]
  · simp [object?, setObject, hc, Ne.symm hc]

theorem reached_setObject (h : id < b.objects.size) {c : Nat} :
    Reached (setObject b id o made') c ↔ c = id ∨ Reached b c := by
  rw [Reached, object?_setObject h, Reached]
  split <;> simp [*]

theorem goes_setObject (h : id < b.objects.size) (hmade : ∀ c ∈ made', c ∈ b.made ∨ c = id) :
    Goes b (setObject b id o made') [id] where
  keeps _ hc := (reached_setObject h).mpr (.inr hc)
  reached _ hc := (reached_setObject h).mpr (.inl (List.mem_singleton.mp hc))
  made c hc := (hmade c hc).imp_right List.mem_singleton.mpr

theorem Builds.setObject (h : Builds ns vs todo b) (hlabelled : Labelled ns vs) (hv : vs[id]? = some v)
    (ho : (IsBlank v o ∧ (id ∈ todo' ∨ id ∈ made')) ∨ (Shows vs id v o ∧ ∀ c ∈ o.parts, Reached b c))
    (hkept : ∀ c, c ≠ id → c ∈ todo ∨ c ∈ b.made → c ∈ todo' ∨ c ∈ made')
    (hwaits : ∀ c, c ∈ todo' ∨ c ∈ made' → (c ∈ todo ∨ c ∈ b.made) ∨ (c = id ∧ ∀ s, v ≠ .scalar s)) :
    Builds ns vs todo' (setObject b id o made') := by
  have hid : id < b.objects.size := by
    rw [h.size, hlabelled.size]
    exact (List.getElem?_eq_some_iff.mp hv).1
  refine ⟨h.nodes, ?_, fun {c w p} hw hp => ?_, fun {c} hc => ?_⟩
  · rw [Build.setObject, Array.set!_eq_setIfInBounds, Array.size_setIfInBounds, h.size]
  · rw [object?_setObject hid] at hp
    split at hp
    next hcid =>
      subst hcid
      obtain rfl := Option.some.inj (hv.symm.trans hw)
      obtain rfl := Option.some.inj hp
      exact ho.imp_right fun ho => ⟨ho.1, fun c hc => (reached_setObject hid).mpr (.inr (ho.2 c hc))⟩
    next hcid =>
      rcases h.object hw hp with ⟨hblank, hin⟩ | ⟨hshows, hparts⟩
      · exact .inl ⟨hblank, hkept c hcid hin⟩
      · exact .inr ⟨hshows, fun c hc => (reached_setObject hid).mpr (.inr (hparts c hc))⟩
  · rcases hwaits c hc with hin | ⟨rfl, hne⟩
    · obtain ⟨w, hw, hne, hreached⟩ := h.waits hin
      exact ⟨w, hw, hne, (reached_setObject hid).mpr (.inr hreached)⟩
    · exact ⟨v, hv, hne, (reached_setObject hid).mpr (.inl rfl)⟩

theorem find_scalarNames {name : String} (h : name ∈ scalarNames) :
    scalarNames.find? (fun n => core n = core name) = some name := by
  simp only [scalarNames, List.mem_cons, List.not_mem_nil, or_false] at h
  rcases h with rfl | rfl | rfl | rfl | rfl | rfl | rfl <;> decide

theorem reach_eq (h : object? b id = none) : reach id b =
    (match scalarNames.find? (core · = (b.nodes.node id).tag),
    emptyObjects.find? (core ·.1 = (b.nodes.node id).tag) with
    | some name, _ => do put id (.plain (← scalar b.nodes id name))
    | none, some (_, o) => do
      put id o
      modify fun b => { b with made := id :: b.made }
    | none, none => throw (undefinedTag (b.nodes.node id)) : Build Unit) b := by
  show (if (object? b id).isNone = true then _ else _ : Build Unit) b = _
  exact congrFun (if_pos (Option.isNone_iff_eq_none.mpr h)) b

theorem scalar_ok {name : String} {text : List Char} {start : Mark} {s : Scalar}
    (hnode : ns.node id = ⟨core name, start, .scalar text⟩) (hvalue : Schema.value name id start text = .ok s) :
    scalar ns id name = .ok s := by
  have htext : scalarText ns Merging.maxDepth id = .ok text := by
    rw [show Merging.maxDepth = 974 + 1 from rfl, scalarText, hnode]
  rw [scalar, htext, hnode, ← hvalue]
  dsimp only [bind, Except.bind]
  split
  · contradiction
  · rfl

theorem Builds.lt_size (h : Builds ns vs todo b) (hlabelled : Labelled ns vs) (hv : vs[id]? = some v) :
    id < b.objects.size := by
  rw [h.size, hlabelled.size]
  exact (List.getElem?_eq_some_iff.mp hv).1

theorem reach_blank (hlabelled : Labelled ns vs) (h : Builds ns vs todo b) (hv : vs[id]? = some v)
    (ho : object? b id = none) {name : String} (hnone : scalarNames.find? (core · = (ns.node id).tag) = none)
    (hsome : emptyObjects.find? (core ·.1 = (ns.node id).tag) = some (name, o)) (hblank : IsBlank v o) :
    ∃ b', reach id b = .ok ((), b') ∧ Builds ns vs todo b' ∧ Goes b b' [id] := by
  have hne (s : Scalar) : v ≠ .scalar s := by
    rintro rfl
    cases hblank
  refine ⟨Build.setObject b id o (id :: b.made), ?_,
    h.setObject hlabelled hv (.inl ⟨hblank, .inr (List.mem_cons_self ..)⟩)
    (fun _ _ hc => hc.imp_right (List.mem_cons_of_mem _)) (fun c hc => ?_),
    goes_setObject (h.lt_size hlabelled hv) fun c hc => (List.mem_cons.mp hc).symm⟩
  · rw [reach_eq ho, h.nodes, hnone, hsome]
    rfl
  · rw [List.mem_cons] at hc
    rcases hc with hc | rfl | hc
    · exact .inl (.inl hc)
    · exact .inr ⟨rfl, hne⟩
    · exact .inl (.inr hc)

theorem reach_ok (hlabelled : Labelled ns vs) (h : Builds ns vs todo b) (hv : vs[id]? = some v) :
    ∃ b', reach id b = .ok ((), b') ∧ Builds ns vs todo b' ∧ Goes b b' [id] := by
  cases ho : object? b id with
  | some o =>
    refine ⟨b, ?_, h, .of_reached (by rw [Reached, ho]; rfl)⟩
    show (if (object? b id).isNone = true then _ else _ : Build Unit) b = _
    rw [ho]
    rfl
  | none =>
    cases hlabelled.stands id v hv with
    | @scalar s name text start hnode hname hvalue =>
      refine ⟨Build.setObject b id (.plain s) b.made, ?_, h.setObject hlabelled hv (.inr ⟨.plain s, nofun⟩)
        (fun _ _ hc => hc)
        fun _ => .inl, goes_setObject (h.lt_size hlabelled hv) fun _ => .inl⟩
      rw [reach_eq ho, h.nodes, hnode, find_scalarNames hname]
      show (liftM (scalar ns id name) >>= _ : Build Unit) b = _
      rw [scalar_ok hnode (hvalue id start)]
      rfl
    | list hnode hitems => exact reach_blank hlabelled h hv ho (by rw [hnode]; rfl) (by rw [hnode]; rfl) (.list _)
    | record hnode hdistinct hpairs =>
      exact reach_blank hlabelled h hv ho (by rw [hnode]; rfl) (by rw [hnode]; rfl) (.record _)

theorem forM_reach_ok (hlabelled : Labelled ns vs) (h : Builds ns vs todo b) {ids : List NodeId}
    (hids : ∀ c ∈ ids, c < vs.length) :
    ∃ b', ids.forM reach b = .ok ((), b') ∧ Builds ns vs todo b' ∧ Goes b b' ids := by
  induction ids generalizing b with
  | nil => exact ⟨b, rfl, h, .nil b⟩
  | cons id ids ih =>
    obtain ⟨hid, hids⟩ := List.forall_mem_cons.mp hids
    obtain ⟨b₁, hreach, h₁, hgoes⟩ := reach_ok hlabelled h (List.getElem?_eq_getElem hid)
    obtain ⟨b₂, hall, h₂, hgoes'⟩ := ih h₁ hids
    exact ⟨b₂, (step_ok hreach).trans hall, h₂, hgoes.append hgoes'⟩

abbrev Matches (vs : List Value) (id : Nat) : List (String × NodeId) → List (String × Value) → Prop :=
  List.Forall₂ fun q e => q.1 = e.1 ∧ id < q.2 ∧ vs[q.2]? = some e.2

theorem Matches.names {items : List (String × NodeId)} {entries : List (String × Value)}
    (h : Matches vs id items entries) :
    items.map Prod.fst = entries.map Prod.fst := by
  induction h with
  | nil => rfl
  | cons h _ ih => rw [List.map_cons, List.map_cons, h.1, ih]

theorem Builds.name (h : Builds ns vs todo b) {name : String} (hv : vs[id]? = some (.text name))
    (hreached : Reached b id) :
    object? b id = some (.plain (.text name)) := by
  obtain ⟨o, ho⟩ := Option.isSome_iff_exists.mp hreached
  rcases h.object hv ho with ⟨hblank, -⟩ | ⟨hshows, -⟩
  · cases hblank
  · cases hshows
    exact ho

def entryOf (start : Mark) (p : NodeId × NodeId) : Build (Scalar × NodeId) := do
  reach p.1
  let b ← get
  match b.objects.getD p.1 none with
  | some (.plain key) =>
    reach p.2
    pure (key, p.2)
  | _ => throw (.malformed (some (Merging.context, start)) "found unhashable key" (b.nodes.node p.1).start)

theorem entriesOf_eq (start : Mark) (pairs : List (NodeId × NodeId)) :
    entriesOf start pairs = (do return Value.ofPairs (← pairs.mapM (entryOf start))) := rfl

theorem entryOf_ok (hlabelled : Labelled ns vs) (h : Builds ns vs todo b) (start : Mark) {p : NodeId × NodeId}
    {name : String} (hname : vs[p.1]? = some (.text name)) (hv : vs[p.2]? = some v) :
    ∃ b', entryOf start p b = .ok ((.text name, p.2), b') ∧ Builds ns vs todo b' ∧ Goes b b' [p.1, p.2] := by
  obtain ⟨b₁, hkey, h₁, hgoes₁⟩ := reach_ok hlabelled h hname
  obtain ⟨b₂, hvalue, h₂, hgoes₂⟩ := reach_ok hlabelled h₁ hv
  have hobject := h₁.name hname (hgoes₁.reached _ (List.mem_singleton_self _))
  refine ⟨b₂, ?_, h₂, hgoes₁.append hgoes₂⟩
  rw [entryOf, step_ok hkey]
  show (match object? b₁ p.1 with | some (.plain key) => _ | _ => _ : Build _) b₁ = _
  rw [hobject]
  exact step_ok hvalue

theorem mapM_entryOf_ok (hlabelled : Labelled ns vs) (h : Builds ns vs todo b) (start : Mark)
    {pairs : List (NodeId × NodeId)} {entries : List (String × Value)}
    (hpairs : List.Forall₂ (fun p e => (id < p.1 ∧ vs[p.1]? = some (.text e.1)) ∧ id < p.2 ∧ vs[p.2]? =
    some e.2) pairs entries) :
    ∃ items b', pairs.mapM (entryOf start) b = .ok (items.map fun q => (.text q.1, q.2), b') ∧
    Matches vs id items entries ∧
      Builds ns vs todo b' ∧ ∃ ids, Goes b b' ids ∧ (∀ c ∈ ids, id < c) ∧ ∀ q ∈ items, q.2 ∈ ids := by
  induction hpairs generalizing b with
  | nil => exact ⟨[], b, rfl, .nil, h, [], .nil b, nofun, nofun⟩
  | @cons p e pairs entries hp hpairs ih =>
    obtain ⟨b₁, hentry, h₁, hgoes₁⟩ := entryOf_ok hlabelled h start hp.1.2 hp.2.2
    obtain ⟨items, b₂, hmap, hmatches, h₂, ids, hgoes₂, hids, hitems⟩ := ih h₁
    refine ⟨(e.1, p.2) :: items, b₂, ?_, .cons ⟨rfl, hp.2⟩ hmatches, h₂, _, hgoes₁.append hgoes₂, ?_, ?_⟩
    · rw [List.mapM_cons, step_ok hentry, step_ok hmap]
      rfl
    · simpa [or_imp, forall_and] using ⟨hp.1.1, hp.2.1, hids⟩
    · simpa using fun name c hc => .inr (.inr (hitems (name, c) hc))

theorem entriesOf_ok (hlabelled : Labelled ns vs) (h : Builds ns vs todo b) (start : Mark)
    {pairs : List (NodeId × NodeId)} {entries : List (String × Value)} (hdistinct : (entries.map Prod.fst).Nodup)
    (hpairs : List.Forall₂ (fun p e => (id < p.1 ∧ vs[p.1]? = some (.text e.1)) ∧ id < p.2 ∧ vs[p.2]? =
    some e.2) pairs entries) :
    ∃ items b', entriesOf start pairs b = .ok (items.map fun q => (.text q.1, q.2), b') ∧ Matches vs id items entries ∧
      Builds ns vs todo b' ∧ ∃ ids, Goes b b' ids ∧ (∀ c ∈ ids, id < c) ∧ ∀ q ∈ items, q.2 ∈ ids := by
  obtain ⟨items, b', hmap, hmatches, hb'⟩ := mapM_entryOf_ok hlabelled h start hpairs
  refine ⟨items, b', ?_, hmatches, hb'⟩
  rw [entriesOf_eq, step_ok hmap, Value.ofPairs_record (hmatches.names ▸ hdistinct)]
  rfl

theorem Matches.shows {items : List (String × NodeId)} {entries : List (String × Value)}
    (h : Matches vs id items entries) :
    Shows vs id (record entries) (.map (items.map fun q => (.text q.1, q.2))) := by
  refine .map (List.forall₂_map_left_iff.mpr (List.forall₂_map_right_iff.mpr (h.imp fun q e hq => ?_)))
  exact ⟨congrArg Scalar.text hq.1, hq.2⟩

theorem fill_list {blank items : List NodeId} (ho : object? b id = some (.list blank))
    (hcontent : (b.nodes.node id).content = .sequence items) :
    fill id b = (do items.forM reach; put id (.list items) : Build Unit) b := by
  have hget : (get : Build Builder) b = .ok (b, b) := rfl
  rw [fill, step_ok hget, show b.objects.getD id none = _ from ho, hcontent]

theorem fill_map {blank : List (Scalar × NodeId)} {pairs : List (NodeId × NodeId)}
    (ho : object? b id = some (.map blank)) (hcontent : (b.nodes.node id).content = .mapping pairs) :
    fill id b = (do
      flatten id
      put id (.map (← entriesOf (b.nodes.node id).start ((← get).nodes.entries id))) : Build Unit) b := by
  have hget : (get : Build Builder) b = .ok (b, b) := rfl
  rw [fill, step_ok hget, show b.objects.getD id none = _ from ho, hcontent]

theorem Builds.fill (h : Builds ns vs (id :: todo) b) (hlabelled : Labelled ns vs) (hv : vs[id]? = some v)
    (hshows : Shows vs id v o) (hparts : ∀ c ∈ o.parts, Reached b c) :
    Builds ns vs todo (Build.setObject b id o b.made) ∧ Goes b (Build.setObject b id o b.made) [] := by
  refine ⟨h.setObject hlabelled hv (.inr ⟨hshows, hparts⟩) (fun c hne hc => ?_) (fun c hc => ?_), ?_⟩
  · exact hc.imp_left fun hc => (List.mem_cons.mp hc).resolve_left hne
  · exact .inl (hc.imp_left (List.mem_cons_of_mem _))
  · exact ⟨fun c hc => (reached_setObject (h.lt_size hlabelled hv)).mpr (.inr hc), nofun, fun _ => .inl⟩

theorem fill_ok (hlabelled : Labelled ns vs) (h : Builds ns vs (id :: todo) b) :
    ∃ b', fill id b = .ok ((), b') ∧ Builds ns vs todo b' ∧ ∃ ids, Goes b b' ids ∧ ∀ c ∈ ids, id < c := by
  obtain ⟨v, hv, hne, hreached⟩ := h.waits (.inl (List.mem_cons_self ..))
  obtain ⟨o, ho⟩ := Option.isSome_iff_exists.mp hreached
  have hkind : IsBlank v o ∨ Shows vs id v o := (h.object hv ho).imp (fun h => h.1) fun h => h.1
  cases hlabelled.stands id v hv with
  | scalar => exact absurd rfl (hne _)
  | @list start items values hnode hitems =>
    -- Whether it was filled before or not, the object is of the kind that its value has.
    obtain ⟨blank, rfl⟩ : ∃ blank, o = .list blank := by
      rcases hkind with hblank | hshows
      · cases hblank; exact ⟨_, rfl⟩
      · cases hshows; exact ⟨_, rfl⟩
    have hids : ∀ c ∈ items, id < c ∧ c < vs.length :=
      ((List.forall₂_and_left _ _).mp (hitems.imp fun c w h => ⟨⟨h.1, (List.getElem?_eq_some_iff.mp h.2).1⟩, h⟩)).1
    obtain ⟨b₁, hall, h₁, hgoes⟩ := forM_reach_ok hlabelled h fun c hc => (hids c hc).2
    obtain ⟨h₂, hgoes'⟩ := h₁.fill hlabelled hv (.list hitems) hgoes.reached
    refine ⟨_, ?_, h₂, _, hgoes.append hgoes', fun c hc => (hids c (by simpa using hc)).1⟩
    rw [fill_list ho (by rw [h.nodes, hnode]), step_ok hall]
    rfl
  | @record start pairs entries hnode hdistinct hpairs =>
    obtain ⟨blank, rfl⟩ : ∃ blank, o = .map blank := by
      rcases hkind with hblank | hshows
      · cases hblank; exact ⟨_, rfl⟩
      · cases hshows; exact ⟨_, rfl⟩
    have hget : (get : Build Builder) b = .ok (b, b) := rfl
    have hkeys : ∀ p ∈ pairs, ∃ name ∈ scalarNames, (ns.node p.1).tag = core name :=
      ((List.forall₂_and_left _ _).mp (hpairs.imp fun p e h => ⟨hlabelled.scalarTag h.1.2, h⟩)).1
    have hflatten : flatten id b = .ok ((), b) := by
      have hmerged := Merging.flatten_ok (by rw [hnode]) hkeys 974
      rw [flatten, step_ok hget, h.nodes]
      show (liftM (Merging.flatten (974 + 1) id ns) >>= _ : Build Unit) b = _
      rw [hmerged]
      show Except.ok ((), { b with nodes := ns }) = _
      rw [← h.nodes]
    have hnodes : b.nodes.entries id = pairs := by rw [h.nodes, Nodes.entries, hnode]
    obtain ⟨items, b₁, hentries, hmatches, h₁, ids, hgoes, hids, hitems⟩ :=
      entriesOf_ok hlabelled h start hdistinct hpairs
    have hparts (c : Nat) (hc : c ∈ (Object.map (items.map fun q => (.text q.1, q.2))).parts) : c ∈ ids := by
      obtain ⟨q, hq, rfl⟩ : ∃ q ∈ items, q.2 = c := by simpa [Object.parts] using hc
      exact hitems q hq
    obtain ⟨h₂, hgoes'⟩ := h₁.fill hlabelled hv hmatches.shows fun c hc => hgoes.reached c (hparts c hc)
    refine ⟨_, ?_, h₂, _, hgoes.append hgoes', fun c hc => hids c (by simpa using hc)⟩
    rw [fill_map ho (by rw [h.nodes, hnode]), step_ok hflatten, step_ok hget, hnodes, h.nodes, hnode, step_ok hentries]
    rfl

theorem forM_fill_ok (hlabelled : Labelled ns vs) (h : Builds ns vs todo b) {k : Nat} (hk : ∀ c ∈ todo, k ≤ c)
    (hmade : ∀ c ∈ b.made, k < c) :
    ∃ b', todo.forM fill b = .ok ((), b') ∧ Builds ns vs [] b' ∧ (∀ c, Reached b c → Reached b' c) ∧
      ∀ c ∈ b'.made, k < c := by
  induction todo generalizing b with
  | nil => exact ⟨b, rfl, h, fun _ hc => hc, hmade⟩
  | cons id todo ih =>
    obtain ⟨hid, hk⟩ := List.forall_mem_cons.mp hk
    obtain ⟨b₁, hfill, h₁, ids, hgoes, hids⟩ := fill_ok hlabelled h
    obtain ⟨b₂, hall, h₂, hkeeps, hmade₂⟩ := ih h₁ hk fun c hc =>
      (hgoes.made c hc).elim (hmade c) fun hc => lt_of_le_of_lt hid (hids c hc)
    exact ⟨b₂, (step_ok hfill).trans hall, h₂, fun c hc => hkeeps c (hgoes.keeps c hc), hmade₂⟩

theorem fillAll_ok (hlabelled : Labelled ns vs) (h : Builds ns vs [] b) {fuel k : Nat} (hk : ∀ c ∈ b.made, k ≤ c)
    (hfuel : ns.size ≤ k + fuel) :
    ∃ b', fillAll fuel b = .ok ((), b') ∧ Builds ns vs [] b' ∧ b'.made = [] ∧ ∀ c, Reached b c → Reached b' c := by
  induction fuel generalizing b k with
  | zero =>
    refine ⟨b, rfl, h, List.eq_nil_iff_forall_not_mem.mpr fun c hc => ?_, fun _ hc => hc⟩
    obtain ⟨v, hv, -⟩ := h.waits (.inr hc)
    have := (List.getElem?_eq_some_iff.mp hv).1
    have := hk c hc
    have := hlabelled.size
    omega
  | succ fuel ih =>
    have hget : (get : Build Builder) b = .ok (b, b) := rfl
    by_cases hmade : b.made = []
    · refine ⟨b, ?_, h, hmade, fun _ hc => hc⟩
      rw [fillAll, step_ok hget, hmade]
      rfl
    · have hround : Builds ns vs b.made.reverse { b with made := [] } := by
        refine ⟨h.nodes, h.size, fun hv ho => ?_, fun hc => h.waits (.inr (by simpa using hc))⟩
        exact (h.object hv ho).imp_left (And.imp_right fun hc => .inl (by simpa using hc))
      obtain ⟨b₁, hall, h₁, hkeeps₁, hmade₁⟩ :=
        forM_fill_ok hlabelled hround (fun c hc => hk c (List.mem_reverse.mp hc)) nofun
      obtain ⟨b₂, hrest, h₂, hempty, hkeeps₂⟩ := ih h₁ hmade₁ (show ns.size ≤ k + 1 + fuel by omega)
      refine ⟨b₂, ?_, h₂, hempty, fun c hc => hkeeps₂ c (hkeeps₁ c hc)⟩
      have hsome : (!b.made.reverse.isEmpty) = true := by simpa using hmade
      have hclear : (modify fun b => { b with made := [] } : Build Unit) b = .ok ((), { b with made := [] }) := rfl
      rw [fillAll, step_ok hget, if_pos hsome]
      exact (step_ok hclear).trans ((step_ok hall).trans hrest)

end Build

def Complete (vs : List Value) (objects : Array (Option Object)) : Prop :=
  ∀ (id : Nat) (v : Value) (o : Object), vs[id]? = some v → objects.getD id none = some o →
    o.Shows vs id v ∧ ∀ c ∈ o.parts, (objects.getD c none).isSome = true

theorem objects_ok {ns : Nodes} {vs : List Value} (h : Labelled ns vs) {root : Nat} {v : Value}
    (hv : vs[root]? = some v) :
    ∃ objects, ns.objects root = .ok objects ∧ Complete vs objects ∧ (objects.getD root none).isSome = true := by
  have hempty : Build.Builds ns vs [] { nodes := ns, objects := Array.replicate ns.size none } := by
    refine ⟨rfl, Array.size_replicate, fun {id w o} hw ho => ?_, fun hc => by simp at hc⟩
    simp [Build.object?, Array.getD] at ho
  obtain ⟨b₁, hreach, h₁, hgoes⟩ := Build.reach_ok h hempty hv
  obtain ⟨b₂, hfill, h₂, hmade, hkeeps⟩ := Build.fillAll_ok h h₁ (fun c _ => Nat.zero_le c)
      (show ns.size ≤ 0 + (ns.size + 1) by omega)
  refine ⟨b₂.objects, ?_, fun id w o hw ho => (h₂.object hw ho).resolve_left (by simp [hmade]),
    hkeeps root (hgoes.reached root (List.mem_singleton_self root))⟩
  rw [Nodes.objects, step_ok hreach, hfill]
  rfl

end Playpen.Yaml

import Mathlib.Data.List.Forall2
import Playpen.Proofs.Yaml.Scalar

namespace Playpen.Yaml

section Steps

variable {σ α β : Type} {s s' : σ} {a : α}

theorem step_ok {x : StateT σ (Except Fault) α} {f : α → StateT σ (Except Fault) β} (h : x s = .ok (a, s')) :
    (x >>= f) s = f a s' := by
  show (x s >>= fun p => f p.1 p.2) = _
  rw [h]
  rfl

theorem step_map {x : StateT σ (Except Fault) α} {f : α → β} (h : x s = .ok (a, s')) : (f <$> x) s = .ok (f a, s') := by
  show (x s >>= fun p => pure (f p.1, p.2)) = _
  rw [h]
  rfl

end Steps

inductive Stands (ns : Nodes) (vs : List Value) (id : Nat) : Value → Prop
  | scalar {s : Scalar} {name : String} {text : List Char} {start : Mark}
      (hnode : ns.node id = ⟨core name, start, .scalar text⟩)
    (hname : name ∈ Build.scalarNames)
    (hvalue : ∀ (mark : Nat) (start : Mark), Schema.value name mark start text = .ok s) :
    Stands ns vs id (.scalar s)
  | list {start : Mark} {items : List NodeId} {values : List Value}
      (hnode : ns.node id = ⟨seqTag, start, .sequence items⟩)
    (hitems : List.Forall₂ (fun c v => id < c ∧ vs[c]? = some v) items values) : Stands ns vs id (.list values)
  | record {start : Mark} {pairs : List (NodeId × NodeId)} {entries : List (String × Value)}
    (hnode : ns.node id = ⟨mapTag, start, .mapping pairs⟩) (hdistinct : (entries.map Prod.fst).Nodup)
    (hpairs : List.Forall₂ (fun p e => (id < p.1 ∧ vs[p.1]? = some (.text e.1)) ∧ id < p.2 ∧ vs[p.2]? =
    some e.2) pairs entries) :
    Stands ns vs id (record entries)

theorem Stands.mono {ns ns' : Nodes} {vs vs' : List Value} {id : Nat} {v : Value} (h : Stands ns vs id v)
    (hnode : ns'.node id = ns.node id) (hvs : ∀ (c : Nat) (w : Value), vs[c]? = some w → vs'[c]? = some w) :
    Stands ns' vs' id v := by
  cases h with
  | scalar h hname hvalue => exact .scalar (hnode.trans h) hname hvalue
  | list h hitems => exact .list (hnode.trans h) (hitems.imp fun _ _ h => ⟨h.1, hvs _ _ h.2⟩)
  | record h hdistinct hpairs =>
    exact .record (hnode.trans h) hdistinct (hpairs.imp fun _ _ h => ⟨⟨h.1.1, hvs _ _ h.1.2⟩, h.2.1, hvs _ _ h.2.2⟩)

structure Grows (ns ns' : Nodes) (vs : List Value) : Prop where
  size : ns'.size = ns.size + vs.length
  same : ∀ id < ns.size, ns'.node id = ns.node id
  stands : ∀ us : List Value, us.length = ns.size → ∀ (k : Nat) (v : Value), vs[k]? = some v →
  Stands ns' (us ++ vs) (ns.size + k) v

theorem Grows.nil (ns : Nodes) : Grows ns ns [] := ⟨rfl, fun _ _ => rfl, nofun⟩

theorem Grows.append {ns ns' ns'' : Nodes} {vs vs' : List Value} (h : Grows ns ns' vs) (h' : Grows ns' ns'' vs') :
    Grows ns ns'' (vs ++ vs') := by
  have hsize := h.size
  refine ⟨by rw [h'.size, h.size, List.length_append, Nat.add_assoc], fun id hid => (h'.same id (by omega)).trans
    (h.same id hid), fun us hus k v hk => ?_⟩
  rw [← List.append_assoc]
  by_cases hlt : k < vs.length
  · rw [List.getElem?_append_left hlt] at hk
    refine (h.stands us hus k v hk).mono (h'.same (ns.size + k) (by omega)) fun c w hc => ?_
    rw [List.getElem?_append_left (List.getElem?_eq_some_iff.mp hc).1, hc]
  · rw [List.getElem?_append_right (Nat.le_of_not_lt hlt)] at hk
    have := h'.stands (us ++ vs) (by rw [List.length_append, hus, hsize]) (k - vs.length) v hk
    rwa [hsize, Nat.add_assoc, Nat.add_sub_cancel' (Nat.le_of_not_lt hlt)] at this

structure Refers (base : Nat) (vs : List Value) (c : Nat) (v : Value) : Prop where
  least : base ≤ c
  value : vs[c - base]? = some v

theorem Refers.left {base : Nat} {vs : List Value} {c : Nat} {v : Value} (h : Refers base vs c v) (vs' : List Value) :
    Refers base (vs ++ vs') c v :=
  ⟨h.least, by rw [List.getElem?_append_left (List.getElem?_eq_some_iff.mp h.value).1, h.value]⟩

theorem Refers.right {base : Nat} {vs vs' : List Value} {c : Nat} {v : Value} (h : Refers (base + vs.length) vs' c v) :
    Refers base (vs ++ vs') c v := by
  have := h.least
  refine ⟨by omega, ?_⟩
  rw [List.getElem?_append_right (by omega), Nat.sub_sub, h.value]

theorem Refers.head (base : Nat) (v : Value) (vs : List Value) : Refers base (v :: vs) base v :=
  ⟨le_refl _, by rw [Nat.sub_self]; rfl⟩

theorem Refers.behind {us vs : List Value} {v : Value} {c : Nat} {w : Value} (h : Refers (us.length + 1) vs c w) :
    us.length < c ∧ (us ++ v :: vs)[c]? = some w := by
  have hleast := h.least
  have hindex : c - us.length = c - (us.length + 1) + 1 := by omega
  refine ⟨hleast, ?_⟩
  rw [List.getElem?_append_right (by omega), hindex, List.getElem?_cons_succ]
  exact h.value

section Arrays

variable {ns ns' : Nodes} {id : Nat}

theorem node_push (ns : Nodes) (n : Node) : Nodes.node (ns.push n) ns.size = n := by
  simp [Nodes.node, Array.getD]

theorem node_push_lt (n : Node) (h : id < ns.size) : Nodes.node (ns.push n) id = ns.node id := by
  simp [Nodes.node, Array.getD, h, Nat.lt_succ_of_lt h, Array.getElem_push_lt]

theorem node_setContent (content : Content) (h : id < ns.size) :
    (ns.setContent id content).node id = { ns.node id with content } := by
  simp [Nodes.node, Nodes.setContent, Array.getD, Array.getElem_modify, h]

theorem node_setContent_ne {other : Nat} (content : Content) (h : other ≠ id) :
    (ns.setContent id content).node other = ns.node other := by
  simp [Nodes.node, Nodes.setContent, Array.getD, Array.getElem_modify, h.symm]

theorem size_setContent (content : Content) : (ns.setContent id content).size = ns.size := by
  simp [Nodes.setContent]

theorem Grows.scalar {s : Scalar} {text : List Char} {plain : Bool} (h : (Token.Kind.scalar text plain).Means s)
    (start : Mark) :
    Grows ns (ns.push ⟨Read.scalarTag none plain text, start, .scalar text⟩) [.scalar s] := by
  obtain ⟨_, _, name, hkind, htag, hname, hvalue⟩ := h
  cases hkind
  refine ⟨Array.size_push .., fun id hid => node_push_lt _ hid, fun us hus k v hk => ?_⟩
  cases k with
  | succ k => cases hk
  | zero =>
    cases hk
    rw [htag]
    exact .scalar (node_push ns _) hname hvalue

theorem Grows.collection {tag : String} {start : Mark} {empty content : Content} {vs : List Value} {v : Value}
    (h : Grows (ns.push ⟨tag, start, empty⟩) ns' vs)
    (hv : ∀ us : List Value, us.length = ns.size → ∀ ns'' : Nodes, ns''.node ns.size = ⟨tag, start, content⟩ →
      Stands ns'' (us ++ v :: vs) ns.size v) :
    Grows ns (ns'.setContent ns.size content) (v :: vs) := by
  have hsize : ns'.size = ns.size + 1 + vs.length := by rw [h.size, Array.size_push]
  refine ⟨?_, fun id hid => ?_, fun us hus k w hk => ?_⟩
  · rw [size_setContent, hsize, List.length_cons]
    omega
  · rw [node_setContent_ne content (by omega), h.same id (by rw [Array.size_push]; omega), node_push_lt _ hid]
  · cases k with
    | zero =>
      cases hk
      refine hv us hus _ ?_
      rw [node_setContent content (by omega), h.same ns.size (by rw [Array.size_push]; omega), node_push]
    | succ k =>
      have hstands := h.stands (us ++ [v]) (by rw [List.length_append, hus, Array.size_push]; rfl) k w hk
      rw [Array.size_push, Nat.add_assoc, Nat.add_comm 1] at hstands
      exact hstands.mono (node_setContent_ne content (by omega)) fun c w hc => by simpa using hc

end Arrays

end Playpen.Yaml

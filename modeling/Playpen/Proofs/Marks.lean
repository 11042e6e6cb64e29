import Playpen.Json.Printer
import Playpen.Yaml.Printer

namespace Playpen

def Scalar.unmarked : Scalar → Scalar
  | .nan _ => .float .nan
  | s => s

namespace Value

mutual

def unmarked : Value → Value
  | .scalar s => .scalar s.unmarked
  | .list items => .list (unmarkedItems items)
  | .tuple items => .tuple (unmarkedItems items)
  | .map entries => .map (unmarkedEntries entries)
  | .set items => .set items
  | .knot isMap => .knot isMap

def unmarkedItems : List Value → List Value
  | [] => []
  | v :: rest => unmarked v :: unmarkedItems rest

def unmarkedEntries : List (Scalar × Value) → List (Scalar × Value)
  | [] => []
  | (k, v) :: rest => (k, unmarked v) :: unmarkedEntries rest

end

mutual

theorem depth_unmarked : ∀ v : Value, v.unmarked.depth = v.depth
  | .scalar _ | .set _ | .knot _ => rfl
  | .list items | .tuple items => by rw [unmarked, depth, depth, deepest_unmarked]
  | .map entries => by rw [unmarked, depth, depth, deepestEntry_unmarked]

theorem deepest_unmarked : ∀ items : List Value, deepest (unmarkedItems items) = deepest items
  | [] => rfl
  | v :: rest => by rw [unmarkedItems, deepest, deepest, depth_unmarked, deepest_unmarked]

theorem deepestEntry_unmarked : ∀ entries : List (Scalar × Value),
    deepestEntry (unmarkedEntries entries) = deepestEntry entries
  | [] => rfl
  | (k, v) :: rest => by rw [unmarkedEntries, deepestEntry, deepestEntry, depth_unmarked, deepestEntry_unmarked]

end

mutual

theorem isKnotted_unmarked : ∀ v : Value, v.unmarked.isKnotted = v.isKnotted
  | .scalar _ | .set _ | .knot _ => rfl
  | .list items | .tuple items => by rw [unmarked, isKnotted, isKnotted, anyKnotted_unmarked]
  | .map entries => by rw [unmarked, isKnotted, isKnotted, anyEntryKnotted_unmarked]

theorem anyKnotted_unmarked : ∀ items : List Value, anyKnotted (unmarkedItems items) = anyKnotted items
  | [] => rfl
  | v :: rest => by rw [unmarkedItems, anyKnotted, anyKnotted, isKnotted_unmarked, anyKnotted_unmarked]

theorem anyEntryKnotted_unmarked : ∀ entries : List (Scalar × Value),
    anyEntryKnotted (unmarkedEntries entries) = anyEntryKnotted entries
  | [] => rfl
  | (k, v) :: rest => by rw [unmarkedEntries, anyEntryKnotted, anyEntryKnotted, isKnotted_unmarked,
      anyEntryKnotted_unmarked]

end

theorem unmarkedItems_scalars (items : List Scalar) : unmarkedItems (items.map .scalar) =
    (items.map Scalar.unmarked).map .scalar := by
  induction items with
  | nil => rfl
  | cons s items ih => rw [List.map_cons, unmarkedItems, ih, List.map_cons, List.map_cons, unmarked]

end Value

namespace Json

variable (layout : Layout)

theorem scalar_unmarked (s : Scalar) : scalar layout s.unmarked = scalar layout s := by
  cases s <;> rfl

mutual

theorem render_unmarked : ∀ (depth : Nat) (lead : List Char) (v : Value), render layout depth lead v.unmarked =
    render layout depth lead v
  | depth, lead, .scalar s => by
    rw [Value.unmarked, render, render, scalar_unmarked]
  | depth, lead, .list items => by
    rw [Value.unmarked, render, render, renderAll_unmarked]
  | depth, lead, .tuple items => by
    rw [Value.unmarked, render, render, renderAll_unmarked]
  | depth, lead, .map [] => by
    rw [Value.unmarked, Value.unmarkedEntries]
  | depth, lead, .map ((k, v) :: rest) => by
    rw [Value.unmarked, Value.unmarkedEntries, render, ← Value.unmarkedEntries, renderEntries_unmarked, render]
    · nofun
    · nofun
  | depth, lead, .set _ => rfl
  | depth, lead, .knot _ => rfl

theorem renderAll_unmarked : ∀ (depth : Nat) (lead : List Char) (items : List Value),
    renderAll layout depth lead (Value.unmarkedItems items) = renderAll layout depth lead items
  | depth, lead, [] => rfl
  | depth, lead, v :: rest => by
    rw [Value.unmarkedItems, renderAll, renderAll, render_unmarked, renderItems_unmarked]

theorem renderItems_unmarked : ∀ (depth : Nat) (items : List Value),
    renderItems layout depth (Value.unmarkedItems items) = renderItems layout depth items
  | depth, [] => rfl
  | depth, v :: rest => by
    rw [Value.unmarkedItems, renderItems, renderItems, render_unmarked, renderItems_unmarked]

theorem renderEntries_unmarked : ∀ (depth : Nat) (lead : List Char) (entries : List (Scalar × Value)),
    renderEntries layout depth lead (Value.unmarkedEntries entries) = renderEntries layout depth lead entries
  | depth, lead, [] => rfl
  | depth, lead, (k, v) :: rest => by
    rw [Value.unmarkedEntries, renderEntries, renderEntries, render_unmarked, renderEntries_unmarked]

end

theorem draft_unmarked (v : Value) : draft layout v.unmarked = draft layout v := render_unmarked layout 0 [] v

end Json

namespace Yaml

namespace Printer

mutual

theorem node_unmarked : ∀ (indent : Option Nat) (inMapping : Bool) (v : Value) (h : Sheet),
    node indent inMapping v.unmarked h = node indent inMapping v h
  | indent, inMapping, .scalar s, h => by
    have htext : textOf s.unmarked = textOf s := by cases s <;> rfl
    rw [Value.unmarked, node, node, htext]
  | indent, inMapping, .list [], h => rfl
  | indent, inMapping, .tuple [], h => rfl
  | indent, inMapping, .list (x :: xs), h => by
    rw [Value.unmarked, Value.unmarkedItems, node, ← Value.unmarkedItems, items_unmarked, node]
    · nofun
    · nofun
  | indent, inMapping, .tuple (x :: xs), h => by
    rw [Value.unmarked, Value.unmarkedItems, node, ← Value.unmarkedItems, items_unmarked, node]
    · nofun
    · nofun
  | indent, inMapping, .map [], h => rfl
  | indent, inMapping, .map ((k, v) :: rest), h => by
    rw [Value.unmarked, Value.unmarkedEntries, node, ← Value.unmarkedEntries, entries_unmarked, node]
    · nofun
    · nofun
  | indent, inMapping, .set items, h => rfl
  | indent, inMapping, .knot _, h => rfl

theorem items_unmarked : ∀ (indent : Nat) (xs : List Value) (h : Sheet),
    items indent (Value.unmarkedItems xs) h = items indent xs h
  | indent, [], h => rfl
  | indent, v :: rest, h => by
    rw [Value.unmarkedItems, items, items, node_unmarked]
    exact congrArg _ (funext fun h => items_unmarked indent rest h)

theorem entries_unmarked : ∀ (indent : Nat) (es : List (Scalar × Value)) (h : Sheet),
    entries indent (Value.unmarkedEntries es) h = entries indent es h
  | indent, [], h => rfl
  | indent, (k, v) :: rest, h => by
    rw [Value.unmarkedEntries, entries, entries]
    refine congrArg _ (funext fun h => ?_)
    rw [node_unmarked]
    exact congrArg _ (funext fun h => entries_unmarked indent rest h)

end

end Printer

theorem print_unmarked (v : Value) : print v.unmarked = print v := by
  rw [print, print, Printer.node_unmarked]

end Yaml

end Playpen

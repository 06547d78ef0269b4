import SymbolSearch.Fault

/-!
# Trails

A trail is what a search comes across one after the other, up to its end or to a fault that cuts it short. Who looks for one thing
only may stop before the fault.
-/

namespace SymbolSearch

/-- Items in the order in which they are met, and the fault that ends them, if one does. -/
structure Trail (α : Type) where
  items : List α
  fault : Option Fault

namespace Trail

variable {α β : Type}

/-- Nothing is met. -/
def empty : Trail α := ⟨[], none⟩

/-- One item is met. -/
def one (a : α) : Trail α := ⟨[a], none⟩

/-- A fault at once. -/
def stop (fault : Fault) : Trail α := ⟨[], some fault⟩

/-- One trail behind the other; behind a fault nothing is met. -/
def append (a b : Trail α) : Trail α :=
  match a.fault with
  | some _ => a
  | none => ⟨a.items ++ b.items, b.fault⟩

/-- The trails of all items one behind the other; behind a fault no item is looked at. -/
def through (f : α → Trail β) : List α → Trail β
  | [] => empty
  | a :: rest =>
    let first := f a
    match first.fault with
    | some _ => first
    | none => first.append (through f rest)

/-- What `f` makes of each item; an item may be dropped, and a fault of `f` ends the trail there. -/
def filterMap (f : α → Except Fault (Option β)) (a : Trail α) : Trail β :=
  (through (fun item =>
    match f item with
    | .ok (some b) => one b
    | .ok none => empty
    | .error fault => stop fault) a.items).append ⟨[], a.fault⟩

/-- All items, provided that no fault cuts the trail short. -/
def all (a : Trail α) : Except Fault (List α) :=
  match a.fault with
  | some fault => .error fault
  | none => .ok a.items

/-- What `f` makes of the first item it accepts; a fault counts only if no item before it is accepted. -/
def findSome? (f : α → Option β) (a : Trail α) : Except Fault (Option β) :=
  match a.items.findSome? f with
  | some b => .ok (some b)
  | none =>
    match a.fault with
    | some fault => .error fault
    | none => .ok none

end Trail

end SymbolSearch

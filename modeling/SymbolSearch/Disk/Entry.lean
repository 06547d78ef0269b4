import SymbolSearch.Data.Assoc
import SymbolSearch.Path.Basic
import SymbolSearch.Text.Utf8

/-!
# Entries

What stands at a place of a disk: a file, a link, or a directory with what stands in it. The entries in a directory have different
names, and putting an entry somewhere or taking one away keeps it so (`isSound_put`, `isSound_erase`).
-/

namespace SymbolSearch

/-- What may be done with a directory. -/
structure Access where
  /-- The names in it may be listed. -/
  lists : Bool
  /-- A name may be looked up in it. -/
  searches : Bool
  deriving DecidableEq, Repr, Inhabited

/-- All may be done. -/
def Access.full : Access := ⟨true, true⟩

/-- What stands at a place of a disk. -/
inductive Entry where
  /-- A file with its content and the time of its last write; a denied one exists and cannot be opened. -/
  | file (content : Bytes) (stamp : Int) (denied : Bool)
  /-- A link to a written path, seen from the link's directory. -/
  | link (target : Text)
  /-- A directory and the entries in it by name. -/
  | directory (access : Access) (children : List (Text × Entry))
  deriving Inhabited

/-- The names that lead from a directory to an entry below it. -/
abbrev Place := List Text

/-- The greatest number of octets in a name. -/
def Disk.nameLimit : Nat := 255

/-- A name that can stand in a directory. -/
def Disk.isName (name : Text) : Bool :=
  Path.isKept name && name ≠ Path.parentName && !name.contains '/' && !name.contains '\x00' && decide (Utf8.size name ≤ nameLimit)

namespace Entry

/-- The entry is a directory. -/
def isDirectory : Entry → Bool
  | directory .. => true
  | _ => false

/-- The entry is a directory in which names may be looked up. -/
def isSearchable : Entry → Bool
  | directory access _ => access.searches
  | _ => false

/-- The entry is a directory whose names may be listed. -/
def isListable : Entry → Bool
  | directory access _ => access.lists
  | _ => false

/-- Where the entry leads if it is a link. -/
def target? : Entry → Option Text
  | link target => some target
  | _ => none

/-- The entry of a name in a directory. -/
def child? (entry : Entry) (name : Text) : Option Entry :=
  match entry with
  | directory _ children => children.lookup name
  | _ => none

/-- The entry that names lead to, links not followed. -/
def at? (entry : Entry) : Place → Option Entry
  | [] => some entry
  | name :: rest =>
    match entry.child? name with
    | some child => child.at? rest
    | none => none

/-! ## Soundness -/

mutual

/-- The names in the directories of an entry can stand there and are different, and no link holds a NUL character. -/
def isSound : Entry → Bool
  | file .. => true
  | link target => !target.contains '\x00'
  | directory _ children => areSound children

/-- The names of children can stand in a directory and are different, and what they lead to is sound. -/
def areSound : List (Text × Entry) → Bool
  | [] => true
  | (name, entry) :: rest =>
    Disk.isName name && !rest.any (fun child => child.1 = name) && entry.isSound && areSound rest

end

/-- Children are sound exactly if their names can stand in a directory, are different, and lead to sound entries. -/
theorem areSound_iff {children : List (Text × Entry)} :
    areSound children = true ↔ (children.map Prod.fst).Nodup ∧
      ∀ child ∈ children, Disk.isName child.1 = true ∧ child.2.isSound = true := by
  induction children with
  | nil => simp [areSound]
  | cons child rest ih =>
    obtain ⟨name, entry⟩ := child
    have hnew : rest.any (fun child => decide (child.1 = name)) = false ↔ name ∉ rest.map Prod.fst := by
      simp only [List.any_eq_false, decide_eq_true_eq, List.mem_map, not_exists, not_and]
    simp only [areSound, Bool.and_eq_true, Bool.not_eq_true', hnew, ih, List.map_cons, List.nodup_cons, List.forall_mem_cons]
    constructor
    · rintro ⟨⟨⟨hname, hfresh⟩, hentry⟩, hnodup, hall⟩
      exact ⟨⟨hfresh, hnodup⟩, ⟨hname, hentry⟩, hall⟩
    · rintro ⟨⟨hfresh, hnodup⟩, ⟨hname, hentry⟩, hall⟩
      exact ⟨⟨⟨hname, hfresh⟩, hentry⟩, hnodup, hall⟩

/-- What is found under a name is one of the children. -/
theorem mem_of_lookup {children : List (Text × Entry)} {name : Text} {entry : Entry} (h : children.lookup name = some entry) :
    (name, entry) ∈ children := by
  obtain ⟨before, after, rfl, -⟩ := List.lookup_eq_some_iff.1 h
  exact List.mem_append_right _ List.mem_cons_self

/-- What a name leads to in a sound directory is sound, and the name can stand there. -/
theorem isSound_child {entry child : Entry} {name : Text} (hs : entry.isSound = true) (h : entry.child? name = some child) :
    Disk.isName name = true ∧ child.isSound = true := by
  cases entry with
  | file content stamp denied => cases h
  | link target => cases h
  | directory access children => exact (areSound_iff.1 hs).2 _ (mem_of_lookup h)

/-! ## Changes -/

/-- What stands at a place once `new` is put there: a directory stays what it is when one is put in its place. -/
def replacedBy (old new : Entry) : Entry :=
  match old, new with
  | directory access children, directory .. => directory access children
  | _, new => new

/-- The entry with `new` put where names lead to. Directories that lack on the way are made; below anything but a directory
nothing can be put. -/
def put (new : Entry) : Place → Entry → Entry
  | [], old => old.replacedBy new
  | name :: rest, directory access children =>
    directory access (Assoc.set children name (put new rest ((children.lookup name).getD (directory .full []))))
  | _ :: _, old => old

/-- The entry without what stands where names lead to. -/
def erase : Place → Entry → Entry
  | [name], directory access children => directory access (children.filter (fun child => child.1 ≠ name))
  | name :: rest, directory access children =>
    directory access (Assoc.change (erase rest) name children)
  | _, entry => entry

/-- Setting a sound entry under a name that can stand in a directory keeps children sound. -/
theorem areSound_set {children : List (Text × Entry)} {name : Text} {entry : Entry} (hs : areSound children = true)
    (hn : Disk.isName name = true) (he : entry.isSound = true) : areSound (Assoc.set children name entry) = true := by
  obtain ⟨hnodup, hall⟩ := areSound_iff.1 hs
  refine areSound_iff.2 ⟨Assoc.nodup_set hnodup name entry, fun child hchild => ?_⟩
  rcases Assoc.of_mem_set hchild with rfl | hchild
  · exact ⟨hn, he⟩
  · exact hall child hchild

/-- An entry stays sound when a sound one is put where names lead to that can stand in directories. -/
theorem isSound_put {new : Entry} (hnew : new.isSound = true) {place : Place} (hp : place.all Disk.isName = true) {old : Entry}
    (hold : old.isSound = true) : (put new place old).isSound = true := by
  induction place generalizing old with
  | nil =>
    unfold put replacedBy
    split
    · exact hold
    · exact hnew
  | cons name rest ih =>
    rw [List.all_cons, Bool.and_eq_true] at hp
    cases old with
    | file content stamp denied => exact hold
    | link target => exact hold
    | directory access children =>
      refine areSound_set hold hp.1 (ih hp.2 ?_)
      cases hc : children.lookup name with
      | none => rfl
      | some child => exact (isSound_child hold hc).2

/-- An entry stays sound when something is taken away. -/
theorem isSound_erase {place : Place} {old : Entry} (hold : old.isSound = true) : (erase place old).isSound = true := by
  induction place generalizing old with
  | nil => exact hold
  | cons name rest ih =>
    cases old with
    | file content stamp denied => cases rest <;> exact hold
    | link target => cases rest <;> exact hold
    | directory access children =>
      obtain ⟨hnodup, hall⟩ := areSound_iff.1 hold
      cases rest with
      | nil =>
        refine areSound_iff.2 ⟨?_, fun child hchild => hall child (List.mem_filter.1 hchild).1⟩
        exact hnodup.sublist (List.filter_sublist.map _)
      | cons other rest =>
        refine areSound_iff.2 ⟨by rwa [Assoc.map_fst_change], fun child hchild => ?_⟩
        rcases Assoc.of_mem_change hchild with ⟨entry, hentry, rfl⟩ | hchild
        · exact ⟨(hall _ hentry).1, ih (hall _ hentry).2⟩
        · exact hall child hchild

end Entry

end SymbolSearch

/-
Values bound to names.

A `Bindings` holds at most one value for each name, in ascending order of the
names by code point.  The order is part of the type: every reduction over a
`Bindings`, such as a sum over the components of a gradient, runs in name order,
so its rounding is the same on every run.
-/
namespace Downhill

/-- A finite map from names to values, kept as its entries in name order. -/
structure Bindings (α : Type) where
  /-- The entries, one for each bound name. -/
  toList : List (String × α)
  /-- Names ascend strictly, so none occurs twice. -/
  ascending : (toList.map Prod.fst).Pairwise (· < ·)

namespace Bindings

variable {α β ε : Type}

/-! ### Looking up -/

/-- No name is bound. -/
def empty : Bindings α := ⟨[], List.Pairwise.nil⟩

instance : EmptyCollection (Bindings α) := ⟨empty⟩

instance : Inhabited (Bindings α) := ⟨empty⟩

/-- The bound names, in order. -/
def keys (b : Bindings α) : List String := b.toList.map Prod.fst

/-- The value bound to a name, if there is one. -/
def get? (b : Bindings α) (name : String) : Option α := b.toList.lookup name

/-- Whether a name is bound. -/
def contains (b : Bindings α) (name : String) : Bool := (b.get? name).isSome

/-- How many names are bound. -/
def size (b : Bindings α) : Nat := b.toList.length

/-- Whether no name is bound. -/
def isEmpty (b : Bindings α) : Bool := b.toList.isEmpty

/-- Whether every entry passes a test. -/
def all (b : Bindings α) (p : String → α → Bool) : Bool := b.toList.all fun e => p e.1 e.2

/-- The sum of a term for each entry, added up from zero in name order. -/
def sumBy [Zero β] [Add β] (b : Bindings α) (f : String → α → β) : β :=
  b.toList.foldl (fun sum e => sum + f e.1 e.2) 0

/-- Two bindings are equal when they bind the same names to values that the
values' own test calls equal, so a NaN differs from itself. -/
instance [BEq α] : BEq (Bindings α) := ⟨fun a b => a.toList == b.toList⟩

/-! ### Binding a name -/

/-- Puts a value at a name's place in an ordered list, replacing the value that
the name had. -/
def insertEntry (name : String) (value : α) : List (String × α) → List (String × α)
  | [] => [(name, value)]
  | (key, held) :: rest =>
    if name < key then (name, value) :: (key, held) :: rest
    else if name = key then (name, value) :: rest
    else (key, held) :: insertEntry name value rest

theorem mem_insertEntry_keys {name other : String} {value : α} {l : List (String × α)}
    (h : other ∈ (insertEntry name value l).map Prod.fst) :
    other = name ∨ other ∈ l.map Prod.fst := by
  induction l with
  | nil => simpa [insertEntry] using h
  | cons e rest ih =>
    obtain ⟨key, held⟩ := e
    simp only [insertEntry] at h
    split at h
    · simpa using h
    · split at h
      · simp only [List.map_cons, List.mem_cons] at h ⊢
        exact h.imp_right Or.inr
      · simp only [List.map_cons, List.mem_cons] at h ⊢
        rcases h with h | h
        · exact Or.inr (Or.inl h)
        · exact (ih h).imp_right Or.inr

theorem insertEntry_ascending (name : String) (value : α) {l : List (String × α)}
    (h : (l.map Prod.fst).Pairwise (· < ·)) :
    ((insertEntry name value l).map Prod.fst).Pairwise (· < ·) := by
  induction l with
  | nil => simp [insertEntry]
  | cons e rest ih =>
    obtain ⟨key, held⟩ := e
    simp only [List.map_cons, List.pairwise_cons] at h
    simp only [insertEntry]
    split
    · rename_i before
      simp only [List.map_cons, List.pairwise_cons, List.mem_cons]
      refine ⟨?_, h⟩
      rintro other (rfl | mem)
      · exact before
      · exact String.lt_trans before (h.1 other mem)
    · split
      · rename_i same
        subst same
        simpa only [List.map_cons, List.pairwise_cons] using h
      · rename_i notBefore different
        simp only [List.map_cons, List.pairwise_cons]
        refine ⟨?_, ih h.2⟩
        intro other mem
        rcases mem_insertEntry_keys mem with rfl | mem
        · exact Std.lt_of_le_of_ne (String.not_lt.mp notBefore) (Ne.symm different)
        · exact h.1 other mem

/-- Binds a name, in place of the value it had. -/
def insert (b : Bindings α) (name : String) (value : α) : Bindings α :=
  ⟨insertEntry name value b.toList, insertEntry_ascending name value b.ascending⟩

/-- The bindings of a list of pairs; a repeated name keeps its last value. -/
def ofList (entries : List (String × α)) : Bindings α :=
  entries.foldl (fun b e => b.insert e.1 e.2) ∅

/-! ### Changing every value -/

/-- Replaces every value, with its name at hand. -/
def map (f : String → α → β) (b : Bindings α) : Bindings β where
  toList := b.toList.map fun e => (e.1, f e.1 e.2)
  ascending := by simpa [List.map_map, Function.comp_def] using b.ascending

/-- Replaces every value, with its place in the name order at hand. -/
def mapIdx (f : Nat → String → α → β) (b : Bindings α) : Bindings β where
  toList := b.toList.mapIdx fun i e => (e.1, f i e.1 e.2)
  ascending := by
    have : (b.toList.mapIdx fun i e => (e.1, f i e.1 e.2)).map Prod.fst =
        b.toList.map Prod.fst := by
      apply List.ext_getElem <;> simp
    rw [this]
    exact b.ascending

/-- Replaces the values of a list of entries from the front, up to the first
failure. -/
def traverseEntries (f : String → α → Except ε β) :
    List (String × α) → Except ε (List (String × β))
  | [] => .ok []
  | (name, value) :: rest =>
    match f name value with
    | .error e => .error e
    | .ok image =>
      match traverseEntries f rest with
      | .error e => .error e
      | .ok images => .ok ((name, image) :: images)

theorem traverseEntries_keys {f : String → α → Except ε β} {l : List (String × α)}
    {images : List (String × β)} (h : traverseEntries f l = .ok images) :
    images.map Prod.fst = l.map Prod.fst := by
  induction l generalizing images with
  | nil =>
    cases h
    rfl
  | cons e rest ih =>
    obtain ⟨name, value⟩ := e
    rw [traverseEntries] at h
    split at h
    · cases h
    · split at h
      · cases h
      · rename_i tail htail
        cases h
        simp [ih htail]

/-- Replaces every value by a computation that may fail; of several failures the
one of the first name counts. -/
def traverse (f : String → α → Except ε β) (b : Bindings α) : Except ε (Bindings β) :=
  match h : traverseEntries f b.toList with
  | .error e => .error e
  | .ok images => .ok ⟨images, by rw [traverseEntries_keys h]; exact b.ascending⟩

end Bindings

end Downhill

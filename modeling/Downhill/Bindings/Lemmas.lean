/-
What the operations on bindings do to look-up and to the bound names.

Look-up is the view through which everything else about bindings is said:
`get?_insert`, `get?_map` and `get?_ofList` say what the operations do to it, and
`ext_get?` says that it determines the bindings.
-/
import Downhill.Bindings.Basic

namespace Downhill

namespace Bindings

variable {α β ε : Type}

/-! ### Look-up in a list of entries -/

theorem lookup_isSome_iff {name : String} {l : List (String × α)} :
    (l.lookup name).isSome = true ↔ name ∈ l.map Prod.fst := by
  induction l with
  | nil => simp
  | cons e rest ih =>
    obtain ⟨key, held⟩ := e
    by_cases h : name = key
    · simp [h]
    · simp only [List.lookup_cons, beq_eq_false_iff_ne.mpr h, ih, List.map_cons, List.mem_cons, h,
        false_or]

theorem lookup_eq_none_of_forall_lt {name : String} {l : List (String × α)}
    (h : ∀ key ∈ l.map Prod.fst, name < key) : l.lookup name = none := by
  rw [← Option.not_isSome_iff_eq_none, lookup_isSome_iff]
  exact fun mem => String.lt_irrefl name (h name mem)

theorem lookup_insertEntry (name : String) (value : α) (l : List (String × α)) (other : String) :
    (insertEntry name value l).lookup other =
      if other = name then some value else l.lookup other := by
  induction l with
  | nil =>
    by_cases h : other = name
    · simp [insertEntry, h]
    · simp [insertEntry, h, List.lookup_cons, beq_eq_false_iff_ne.mpr h]
  | cons e rest ih =>
    obtain ⟨key, held⟩ := e
    simp only [insertEntry]
    split
    · by_cases h : other = name
      · simp [h]
      · simp [List.lookup_cons, beq_eq_false_iff_ne.mpr h, h]
    · split
      · rename_i same
        subst same
        by_cases h : other = name
        · simp [h]
        · simp [List.lookup_cons, beq_eq_false_iff_ne.mpr h, h]
      · rename_i different
        by_cases hk : other = key
        · subst hk
          simp [Ne.symm different]
        · simp only [List.lookup_cons, beq_eq_false_iff_ne.mpr hk, ih]

theorem lookup_mapEntries (f : String → α → β) (l : List (String × α)) (name : String) :
    (l.map fun e => (e.1, f e.1 e.2)).lookup name = (l.lookup name).map (f name) := by
  induction l with
  | nil => rfl
  | cons e rest ih =>
    obtain ⟨key, held⟩ := e
    by_cases h : name = key
    · subst h
      simp
    · simp only [List.map_cons, List.lookup_cons, beq_eq_false_iff_ne.mpr h, ih]

/-! ### Look-up in bindings -/

@[simp] theorem get?_empty (name : String) : (∅ : Bindings α).get? name = none := rfl

/-- **Binding a name changes the value of that name and of no other.** -/
theorem get?_insert (b : Bindings α) (name : String) (value : α) (other : String) :
    (b.insert name value).get? other = if other = name then some value else b.get? other :=
  lookup_insertEntry name value b.toList other

@[simp] theorem get?_map (f : String → α → β) (b : Bindings α) (name : String) :
    (b.map f).get? name = (b.get? name).map (f name) :=
  lookup_mapEntries f b.toList name

theorem contains_iff_mem_keys {b : Bindings α} {name : String} :
    b.contains name = true ↔ name ∈ b.keys :=
  lookup_isSome_iff

theorem mem_keys_iff {b : Bindings α} {name : String} :
    name ∈ b.keys ↔ ∃ value, b.get? name = some value := by
  rw [← contains_iff_mem_keys, contains, Option.isSome_iff_exists]

/-- Looking up a name finds its one entry. -/
theorem get?_eq_some_iff {b : Bindings α} {name : String} {value : α} :
    b.get? name = some value ↔ (name, value) ∈ b.toList := by
  obtain ⟨l, asc⟩ := b
  show l.lookup name = some value ↔ (name, value) ∈ l
  induction l with
  | nil => simp
  | cons e rest ih =>
    obtain ⟨key, held⟩ := e
    simp only [List.map_cons, List.pairwise_cons] at asc
    by_cases h : name = key
    · subst h
      have fresh : (name, value) ∉ rest := by
        intro mem
        exact String.lt_irrefl name (asc.1 name (List.mem_map_of_mem mem))
      simp [fresh, eq_comm]
    · rw [List.lookup_cons, beq_eq_false_iff_ne.mpr h]
      simp only [List.mem_cons, Prod.mk.injEq, h, false_and, false_or]
      exact ih asc.2

/-- What is found has been made from an entry and its place. -/
theorem exists_of_get?_mapIdx {f : Nat → String → α → β} {b : Bindings α} {name : String} {y : β}
    (found : (b.mapIdx f).get? name = some y) :
    ∃ k x, b.get? name = some x ∧ y = f k name x := by
  have mem := get?_eq_some_iff.mp found
  obtain ⟨k, inside, entry⟩ := List.mem_mapIdx.mp mem
  cases entry
  exact ⟨k, b.toList[k].2, get?_eq_some_iff.mpr (List.getElem_mem inside), rfl⟩

/-- A test of all entries is a test of what look-up finds. -/
theorem all_eq_true_iff {b : Bindings α} {test : String → α → Bool} :
    b.all test = true ↔ ∀ name value, b.get? name = some value → test name value = true := by
  rw [all, List.all_eq_true]
  constructor
  · intro h name value found
    exact h (name, value) (get?_eq_some_iff.mp found)
  · rintro h ⟨name, value⟩ mem
    exact h name value (get?_eq_some_iff.mpr mem)

/-- Of several pairs with one name the last one counts. -/
theorem get?_ofList (entries : List (String × α)) (name : String) :
    (ofList entries).get? name = entries.reverse.lookup name := by
  have step : ∀ (l : List (String × α)) (b : Bindings α),
      (l.foldl (fun b e => b.insert e.1 e.2) b).get? name =
        (l.reverse.lookup name).or (b.get? name) := by
    intro l
    induction l with
    | nil => intro b; simp
    | cons e rest ih =>
      intro b
      obtain ⟨key, held⟩ := e
      rw [List.foldl_cons, ih, get?_insert, List.reverse_cons, List.lookup_append,
        Option.or_assoc]
      by_cases h : name = key
      · simp [h]
      · simp [h, List.lookup_cons, beq_eq_false_iff_ne.mpr h]
  simpa [ofList] using step entries ∅

theorem eq_of_toList_eq {a b : Bindings α} (h : a.toList = b.toList) : a = b := by
  cases a
  cases b
  cases h
  rfl

/-- **Look-up determines the bindings**: the order of the names leaves only one
way to write the entries down. -/
theorem ext_get? {a b : Bindings α} (h : ∀ name, a.get? name = b.get? name) : a = b := by
  have lists : ∀ (l r : List (String × α)), (l.map Prod.fst).Pairwise (· < ·) →
      (r.map Prod.fst).Pairwise (· < ·) → (∀ name, l.lookup name = r.lookup name) → l = r := by
    intro l
    induction l with
    | nil =>
      intro r _ _ same
      cases r with
      | nil => rfl
      | cons e rest =>
        obtain ⟨key, held⟩ := e
        simpa using same key
    | cons e rest ih =>
      intro r ascL ascR same
      obtain ⟨key, held⟩ := e
      cases r with
      | nil => simpa using same key
      | cons e' rest' =>
        obtain ⟨key', held'⟩ := e'
        simp only [List.map_cons, List.pairwise_cons] at ascL ascR
        have hkey : key = key' := by
          have inR : key ∈ key' :: rest'.map Prod.fst := by
            simpa using (lookup_isSome_iff (l := (key', held') :: rest')).mp
              (by rw [← same key]; simp)
          have inL : key' ∈ key :: rest.map Prod.fst := by
            simpa using (lookup_isSome_iff (l := (key, held) :: rest)).mp
              (by rw [same key']; simp)
          rcases List.mem_cons.mp inR with eq | memR
          · exact eq
          · rcases List.mem_cons.mp inL with eq | memL
            · exact eq.symm
            · exact absurd (ascL.1 key' memL) (String.lt_asymm (ascR.1 key memR))
        subst hkey
        have hheld : held = held' := by simpa using same key
        subst hheld
        have tails : rest = rest' := by
          refine ih rest' ascL.2 ascR.2 fun name => ?_
          by_cases hn : name = key
          · subst hn
            rw [lookup_eq_none_of_forall_lt ascL.1, lookup_eq_none_of_forall_lt ascR.1]
          · simpa [List.lookup_cons, beq_eq_false_iff_ne.mpr hn] using same name
        rw [tails]
  exact eq_of_toList_eq (lists a.toList b.toList a.ascending b.ascending h)

/-- A name after all others is entered at the end. -/
theorem insertEntry_of_forall_lt {name : String} {value : α} {l : List (String × α)}
    (h : ∀ key ∈ l.map Prod.fst, key < name) : insertEntry name value l = l ++ [(name, value)] := by
  induction l with
  | nil => rfl
  | cons e rest ih =>
    obtain ⟨key, held⟩ := e
    rw [List.map_cons, List.forall_mem_cons] at h
    have different : name ≠ key := fun same => String.lt_irrefl key (same ▸ h.1)
    rw [insertEntry, if_neg (String.lt_asymm h.1), if_neg different, ih h.2]
    rfl

/-- Entries that are in order already are kept as they are. -/
theorem toList_ofList {entries : List (String × α)}
    (ascending : (entries.map Prod.fst).Pairwise (· < ·)) : (ofList entries).toList = entries := by
  have step : ∀ (l : List (String × α)) (b : Bindings α),
      ((b.toList ++ l).map Prod.fst).Pairwise (· < ·) →
        (l.foldl (fun b e => b.insert e.1 e.2) b).toList = b.toList ++ l := by
    intro l
    induction l with
    | nil => intro b _; simp
    | cons e rest ih =>
      intro b asc
      have last : ∀ key ∈ b.toList.map Prod.fst, key < e.1 := by
        intro key mem
        rw [List.map_append, List.pairwise_append] at asc
        exact asc.2.2 key mem e.1 List.mem_cons_self
      have entered : (b.insert e.1 e.2).toList = b.toList ++ [e] := insertEntry_of_forall_lt last
      rw [List.foldl_cons, ih (b.insert e.1 e.2) (by rw [entered]; simpa using asc), entered,
        List.append_assoc, List.singleton_append]
  exact step entries ∅ ascending

/-! ### The bound names -/

@[simp] theorem keys_empty : (∅ : Bindings α).keys = [] := rfl

@[simp] theorem keys_map (f : String → α → β) (b : Bindings α) : (b.map f).keys = b.keys := by
  simp [keys, map, Function.comp_def]

@[simp] theorem keys_mapIdx (f : Nat → String → α → β) (b : Bindings α) :
    (b.mapIdx f).keys = b.keys := by
  apply List.ext_getElem <;> simp [keys, mapIdx]

theorem mem_keys_insert {b : Bindings α} {name other : String} {value : α} :
    other ∈ (b.insert name value).keys ↔ other = name ∨ other ∈ b.keys := by
  rw [← contains_iff_mem_keys, ← contains_iff_mem_keys, contains, contains, get?_insert]
  by_cases h : other = name <;> simp [h]

theorem mem_keys_ofList {entries : List (String × α)} {name : String} :
    name ∈ (ofList entries).keys ↔ name ∈ entries.map Prod.fst := by
  rw [← contains_iff_mem_keys, contains, get?_ofList, lookup_isSome_iff]
  simp

/-! ### Traversals -/

/-- A traversal of bindings is one of the list of their entries. -/
theorem map_toList_traverse (f : String → α → Except ε β) (b : Bindings α) :
    (b.traverse f).map toList = traverseEntries f b.toList := by
  unfold traverse
  split
  · rename_i e failed
    exact failed.symm
  · rename_i images done
    exact done.symm

theorem eq_of_map_toList_eq {r r' : Except ε (Bindings β)} (h : r.map toList = r'.map toList) :
    r = r' := by
  cases r with
  | error e =>
    cases r' with
    | error e' => exact congrArg Except.error (Except.error.inj h)
    | ok b' => cases h
  | ok b =>
    cases r' with
    | error e' => cases h
    | ok b' => exact congrArg Except.ok (eq_of_toList_eq (Except.ok.inj h))

/-- A traversal depends only on what is done at the entries. -/
theorem traverse_congr {f g : String → α → Except ε β} {b : Bindings α}
    (h : ∀ name value, b.get? name = some value → f name value = g name value) :
    b.traverse f = b.traverse g := by
  have entries : ∀ l : List (String × α), (∀ e ∈ l, f e.1 e.2 = g e.1 e.2) →
      traverseEntries f l = traverseEntries g l := by
    intro l
    induction l with
    | nil => intro _; rfl
    | cons e rest ih =>
      intro each
      rw [traverseEntries, traverseEntries, each e List.mem_cons_self,
        ih fun e' mem => each e' (List.mem_cons_of_mem e mem)]
  refine eq_of_map_toList_eq ?_
  rw [map_toList_traverse, map_toList_traverse]
  exact entries b.toList fun e mem => h e.1 e.2 (get?_eq_some_iff.mpr mem)

/-- A traversal that cannot fail changes every value. -/
theorem traverse_ok (f : String → α → β) (b : Bindings α) :
    b.traverse (fun name value => (.ok (f name value) : Except ε β)) = .ok (b.map f) := by
  have entries : ∀ l : List (String × α),
      traverseEntries (fun name value => (.ok (f name value) : Except ε β)) l =
        .ok (l.map fun e => (e.1, f e.1 e.2)) := by
    intro l
    induction l with
    | nil => rfl
    | cons e rest ih => rw [traverseEntries, ih, List.map_cons]
  refine eq_of_map_toList_eq ?_
  rw [map_toList_traverse, entries]
  rfl

/-- Changing every value and traversing is one traversal. -/
theorem traverse_map {γ : Type} (f : String → β → Except ε γ) (g : String → α → β)
    (b : Bindings α) :
    (b.map g).traverse f = b.traverse fun name value => f name (g name value) := by
  have entries : ∀ l : List (String × α),
      traverseEntries f (l.map fun e => (e.1, g e.1 e.2)) =
        traverseEntries (fun name value => f name (g name value)) l := by
    intro l
    induction l with
    | nil => rfl
    | cons e rest ih => rw [List.map_cons, traverseEntries, traverseEntries, ih]
  refine eq_of_map_toList_eq ?_
  rw [map_toList_traverse, map_toList_traverse]
  exact entries b.toList

/-- A list of entries fails as its first entry that fails, all entries before that one having
succeeded. -/
theorem traverseEntries_eq_error_iff {f : String → α → Except ε β} {l : List (String × α)}
    {err : ε} : traverseEntries f l = .error err ↔ ∃ before e after, l = before ++ e :: after ∧
      (∀ e' ∈ before, ∃ image, f e'.1 e'.2 = .ok image) ∧ f e.1 e.2 = .error err := by
  induction l with
  | nil => simp [traverseEntries]
  | cons head rest ih =>
    obtain ⟨name, value⟩ := head
    rcases here : f name value with err' | image
    · rw [traverseEntries, here]
      constructor
      · intro failed
        cases failed
        exact ⟨[], (name, value), rest, rfl, by simp, here⟩
      · rintro ⟨_ | ⟨first, before⟩, e, after, split, passed, failed⟩
        · cases split
          cases here.symm.trans failed
          rfl
        · cases split
          obtain ⟨image, ok⟩ := passed (name, value) List.mem_cons_self
          cases here.symm.trans ok
    · have later : traverseEntries f ((name, value) :: rest) = .error err ↔
          traverseEntries f rest = .error err := by
        rw [traverseEntries, here]
        cases traverseEntries f rest <;> simp
      rw [later, ih]
      constructor
      · rintro ⟨before, e, after, rfl, passed, failed⟩
        exact ⟨(name, value) :: before, e, after, rfl,
          List.forall_mem_cons.mpr ⟨⟨image, here⟩, passed⟩, failed⟩
      · rintro ⟨_ | ⟨first, before⟩, e, after, split, passed, failed⟩
        · cases split
          cases here.symm.trans failed
        · cases split
          exact ⟨before, e, after, rfl, (List.forall_mem_cons.mp passed).2, failed⟩

/-- **A traversal fails as the first entry, in name order, at which it fails.** -/
theorem traverse_eq_error_iff {f : String → α → Except ε β} {b : Bindings α} {err : ε} :
    b.traverse f = .error err ↔ ∃ before e after, b.toList = before ++ e :: after ∧
      (∀ e' ∈ before, ∃ image, f e'.1 e'.2 = .ok image) ∧ f e.1 e.2 = .error err := by
  rw [← traverseEntries_eq_error_iff, ← map_toList_traverse]
  cases b.traverse f <;> simp [Except.map]

/-- A traversal that fails does so at some entry. -/
theorem exists_of_traverse_eq_error {f : String → α → Except ε β} {b : Bindings α} {err : ε}
    (h : b.traverse f = .error err) : ∃ name value, b.get? name = some value ∧
      f name value = .error err := by
  obtain ⟨before, e, after, split, -, failed⟩ := traverse_eq_error_iff.mp h
  exact ⟨e.1, e.2, get?_eq_some_iff.mpr (by simp [split]), failed⟩

/-- A traversal succeeds when it does at every entry. -/
theorem exists_traverse_eq_ok {f : String → α → Except ε β} {b : Bindings α}
    (h : ∀ name value, b.get? name = some value → ∃ image, f name value = .ok image) :
    ∃ c, b.traverse f = .ok c := by
  rcases result : b.traverse f with err | c
  · obtain ⟨name, value, found, failed⟩ := exists_of_traverse_eq_error result
    obtain ⟨image, ok⟩ := h name value found
    cases failed.symm.trans ok
  · exact ⟨c, rfl⟩

/-- A traversal that succeeds does so at every entry, and keeps what comes out there. -/
theorem exists_of_traverse_eq_ok {f : String → α → Except ε β} {b : Bindings α} {c : Bindings β}
    (h : b.traverse f = .ok c) {name : String} {value : α} (found : b.get? name = some value) :
    ∃ image, f name value = .ok image ∧ c.get? name = some image := by
  have entries : ∀ (l : List (String × α)) {images : List (String × β)},
      traverseEntries f l = .ok images →
        ∀ e ∈ l, ∃ image, f e.1 e.2 = .ok image ∧ (e.1, image) ∈ images := by
    intro l
    induction l with
    | nil => intro _ _ e mem; cases mem
    | cons e rest ih =>
      intro images done
      obtain ⟨name, value⟩ := e
      rw [traverseEntries] at done
      split at done
      · cases done
      · rename_i image here
        split at done
        · cases done
        · rename_i tail later
          cases done
          refine List.forall_mem_cons.mpr ⟨⟨image, here, List.mem_cons_self⟩, ?_⟩
          intro e mem
          obtain ⟨image', there, kept⟩ := ih later e mem
          exact ⟨image', there, List.mem_cons_of_mem _ kept⟩
  have done := map_toList_traverse f b
  rw [h] at done
  obtain ⟨image, here, kept⟩ :=
    entries b.toList done.symm (name, value) (get?_eq_some_iff.mp found)
  exact ⟨image, here, get?_eq_some_iff.mpr kept⟩

/-- A traversal that succeeds binds the same names. -/
theorem keys_traverse {f : String → α → Except ε β} {b : Bindings α} {c : Bindings β}
    (h : b.traverse f = .ok c) : c.keys = b.keys := by
  have done := map_toList_traverse f b
  rw [h] at done
  exact traverseEntries_keys done.symm

end Bindings

end Downhill

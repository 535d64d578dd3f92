/-!
Finite maps as strictly ascending lists of entries, for any lawful three-way comparison of keys.
Because the list is canonical, two maps with the same entries are equal. `find?_insert` and
`find?_erase` say what the operations do; `ext_find?` says that a map is its look-ups.
-/
namespace ContractStore
open Std

structure SortedMap {κ : Type} (cmp : κ → κ → Ordering) (ν : Type) where
  entries : List (κ × ν)
  sorted : entries.Pairwise fun a b => cmp a.1 b.1 = .lt

namespace SortedMap
variable {κ ν : Type} {cmp : κ → κ → Ordering}

def findEntry (cmp : κ → κ → Ordering) (k : κ) : List (κ × ν) → Option ν
  | [] => none
  | (key, value) :: rest =>
    match cmp k key with
    | .lt => none
    | .eq => some value
    | .gt => findEntry cmp k rest

def insertEntry (cmp : κ → κ → Ordering) (k : κ) (v : ν) : List (κ × ν) → List (κ × ν)
  | [] => [(k, v)]
  | (key, value) :: rest =>
    match cmp k key with
    | .lt => (k, v) :: (key, value) :: rest
    | .eq => (k, v) :: rest
    | .gt => (key, value) :: insertEntry cmp k v rest

def eraseEntry (cmp : κ → κ → Ordering) (k : κ) : List (κ × ν) → List (κ × ν)
  | [] => []
  | (key, value) :: rest =>
    match cmp k key with
    | .lt => (key, value) :: rest
    | .eq => rest
    | .gt => (key, value) :: eraseEntry cmp k rest

theorem mem_insertEntry {k : κ} {v : ν} {entries : List (κ × ν)} {e : κ × ν}
    (h : e ∈ insertEntry cmp k v entries) : e = (k, v) ∨ e ∈ entries := by
  induction entries with
  | nil => simpa [insertEntry] using h
  | cons head rest ih =>
    obtain ⟨key, value⟩ := head
    unfold insertEntry at h
    split at h <;> grind

theorem mem_eraseEntry {k : κ} {entries : List (κ × ν)} {e : κ × ν}
    (h : e ∈ eraseEntry cmp k entries) : e ∈ entries := by
  induction entries with
  | nil => simp [eraseEntry] at h
  | cons head rest ih =>
    obtain ⟨key, value⟩ := head
    unfold eraseEntry at h
    split at h <;> grind

theorem sorted_insertEntry [TransCmp cmp] (k : κ) (v : ν) {entries : List (κ × ν)}
    (sorted : entries.Pairwise fun a b => cmp a.1 b.1 = .lt) :
    (insertEntry cmp k v entries).Pairwise fun a b => cmp a.1 b.1 = .lt := by
  induction entries with
  | nil => simp [insertEntry]
  | cons head rest ih =>
    obtain ⟨key, value⟩ := head
    rw [List.pairwise_cons] at sorted
    unfold insertEntry
    split
    · rename_i below
      refine List.pairwise_cons.2 ⟨?_, List.pairwise_cons.2 sorted⟩
      intro e he
      rcases List.mem_cons.1 he with rfl | he
      · exact below
      · exact TransCmp.lt_trans below (sorted.1 e he)
    · rename_i same
      refine List.pairwise_cons.2 ⟨fun e he => ?_, sorted.2⟩
      exact TransCmp.lt_of_eq_of_lt same (sorted.1 e he)
    · rename_i above
      refine List.pairwise_cons.2 ⟨fun e he => ?_, ih sorted.2⟩
      rcases mem_insertEntry he with rfl | he
      · exact OrientedCmp.lt_of_gt above
      · exact sorted.1 e he

theorem sorted_eraseEntry (k : κ) {entries : List (κ × ν)}
    (sorted : entries.Pairwise fun a b => cmp a.1 b.1 = .lt) :
    (eraseEntry cmp k entries).Pairwise fun a b => cmp a.1 b.1 = .lt := by
  induction entries with
  | nil => simp [eraseEntry]
  | cons head rest ih =>
    obtain ⟨key, value⟩ := head
    rw [List.pairwise_cons] at sorted
    unfold eraseEntry
    split
    · exact List.pairwise_cons.2 sorted
    · exact sorted.2
    · exact List.pairwise_cons.2 ⟨fun e he => sorted.1 e (mem_eraseEntry he), ih sorted.2⟩

def empty : SortedMap cmp ν := ⟨[], .nil⟩

instance : Inhabited (SortedMap cmp ν) := ⟨empty⟩

def size (m : SortedMap cmp ν) : Nat := m.entries.length

def keys (m : SortedMap cmp ν) : List κ := m.entries.map Prod.fst

def find? (m : SortedMap cmp ν) (k : κ) : Option ν := findEntry cmp k m.entries

def contains (m : SortedMap cmp ν) (k : κ) : Bool := (m.find? k).isSome

def insert [TransCmp cmp] (m : SortedMap cmp ν) (k : κ) (v : ν) : SortedMap cmp ν :=
  ⟨insertEntry cmp k v m.entries, sorted_insertEntry k v m.sorted⟩

def erase (m : SortedMap cmp ν) (k : κ) : SortedMap cmp ν :=
  ⟨eraseEntry cmp k m.entries, sorted_eraseEntry k m.sorted⟩

/-- Of several pairs with one key the last wins. -/
def ofList [TransCmp cmp] (pairs : List (κ × ν)) : SortedMap cmp ν :=
  pairs.foldl (fun m pair => m.insert pair.1 pair.2) empty

@[ext] theorem ext {a b : SortedMap cmp ν} (h : a.entries = b.entries) : a = b := by
  cases a; cases b; cases h; rfl

@[simp] theorem find?_empty (k : κ) : (empty : SortedMap cmp ν).find? k = none := rfl

theorem findEntry_insertEntry [TransCmp cmp] [LawfulEqCmp cmp] (k : κ) (v : ν) (x : κ)
    (entries : List (κ × ν)) :
    findEntry cmp x (insertEntry cmp k v entries) =
      if cmp x k = .eq then some v else findEntry cmp x entries := by
  induction entries with
  | nil => cases h : cmp x k <;> simp [insertEntry, findEntry, h]
  | cons head rest ih =>
    obtain ⟨key, value⟩ := head
    cases place : cmp k key with
    | lt =>
      cases h : cmp x k with
      | lt => simp [insertEntry, findEntry, place, h, TransCmp.lt_trans h place]
      | eq => simp [insertEntry, findEntry, place, h]
      | gt => simp [insertEntry, findEntry, place, h]
    | eq =>
      cases LawfulEqCmp.eq_of_compare place
      cases h : cmp x k <;> simp [insertEntry, findEntry, place, h]
    | gt =>
      simp only [insertEntry, place, findEntry, ih]
      cases h : cmp x key with
      | lt => simp [TransCmp.lt_trans h (OrientedCmp.lt_of_gt place)]
      | eq =>
        cases LawfulEqCmp.eq_of_compare h
        simp [OrientedCmp.lt_of_gt place]
      | gt => rfl

theorem find?_insert [TransCmp cmp] [LawfulEqCmp cmp] (m : SortedMap cmp ν) (k : κ) (v : ν)
    (x : κ) : (m.insert k v).find? x = if cmp x k = .eq then some v else m.find? x :=
  findEntry_insertEntry k v x m.entries

theorem findEntry_eq_none_of_lt [TransCmp cmp] {x : κ} {entries : List (κ × ν)}
    (h : ∀ e ∈ entries, cmp x e.1 = .lt) : findEntry cmp x entries = none := by
  cases entries with
  | nil => rfl
  | cons head rest => simp [findEntry, h head]

theorem findEntry_eraseEntry [TransCmp cmp] [LawfulEqCmp cmp] (k x : κ)
    {entries : List (κ × ν)} (sorted : entries.Pairwise fun a b => cmp a.1 b.1 = .lt) :
    findEntry cmp x (eraseEntry cmp k entries) =
      if cmp x k = .eq then none else findEntry cmp x entries := by
  induction entries with
  | nil => simp [eraseEntry, findEntry]
  | cons head rest ih =>
    obtain ⟨key, value⟩ := head
    rw [List.pairwise_cons] at sorted
    cases place : cmp k key with
    | lt =>
      cases h : cmp x k with
      | eq =>
        cases LawfulEqCmp.eq_of_compare h
        simp [eraseEntry, findEntry, place]
      | lt | gt => simp [eraseEntry, place]
    | eq =>
      cases LawfulEqCmp.eq_of_compare place
      have above := sorted.1
      cases h : cmp x k with
      | lt =>
        have := findEntry_eq_none_of_lt fun e he => TransCmp.lt_trans h (above e he)
        simp [eraseEntry, findEntry, place, h, this]
      | eq =>
        cases LawfulEqCmp.eq_of_compare h
        simp [eraseEntry, place, findEntry_eq_none_of_lt above]
      | gt => simp [eraseEntry, findEntry, place, h]
    | gt =>
      simp only [eraseEntry, place, findEntry, ih sorted.2]
      cases h : cmp x key with
      | lt => simp
      | eq =>
        cases LawfulEqCmp.eq_of_compare h
        simp [OrientedCmp.lt_of_gt place]
      | gt => rfl

theorem find?_erase [TransCmp cmp] [LawfulEqCmp cmp] (m : SortedMap cmp ν) (k x : κ) :
    (m.erase k).find? x = if cmp x k = .eq then none else m.find? x :=
  findEntry_eraseEntry k x m.sorted

theorem entries_ext [TransCmp cmp] [LawfulEqCmp cmp] {left right : List (κ × ν)}
    (sortedLeft : left.Pairwise fun a b => cmp a.1 b.1 = .lt)
    (sortedRight : right.Pairwise fun a b => cmp a.1 b.1 = .lt)
    (agree : ∀ k, findEntry cmp k left = findEntry cmp k right) : left = right := by
  have self (k : κ) : cmp k k = .eq := ReflCmp.compare_self
  induction left generalizing right with
  | nil =>
    cases right with
    | nil => rfl
    | cons head rest => simpa [findEntry, self] using agree head.1
  | cons a left ih =>
    cases right with
    | nil => simpa [findEntry, self] using agree a.1
    | cons b right =>
      rw [List.pairwise_cons] at sortedLeft sortedRight
      obtain ⟨k, v⟩ := a
      obtain ⟨k', v'⟩ := b
      cases place : cmp k k' with
      | lt => simpa [findEntry, self, place] using agree k
      | gt => simpa [findEntry, self, OrientedCmp.lt_of_gt place] using agree k'
      | eq =>
        cases LawfulEqCmp.eq_of_compare place
        have same : v = v' := by simpa [findEntry, self] using agree k
        subst same
        congr 1
        apply ih sortedLeft.2 sortedRight.2
        intro x
        cases h : cmp x k with
        | lt =>
          rw [findEntry_eq_none_of_lt fun e he => TransCmp.lt_trans h (sortedLeft.1 e he),
            findEntry_eq_none_of_lt fun e he => TransCmp.lt_trans h (sortedRight.1 e he)]
        | eq =>
          cases LawfulEqCmp.eq_of_compare h
          rw [findEntry_eq_none_of_lt sortedLeft.1, findEntry_eq_none_of_lt sortedRight.1]
        | gt => simpa [findEntry, h] using agree x

theorem ext_find? [TransCmp cmp] [LawfulEqCmp cmp] {a b : SortedMap cmp ν}
    (agree : ∀ k, a.find? k = b.find? k) : a = b :=
  ext (entries_ext a.sorted b.sorted agree)

end SortedMap
end ContractStore

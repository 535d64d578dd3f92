import ContractStore.SortedMap

/-!
What a sorted map holds, read off its entries. Looking a key up finds exactly the entry under it, so
a map is determined by its entries in any order (`ofList_of_perm`), and a fold of inserts or erases
is determined by the keys it names.
-/
namespace ContractStore.SortedMap
open Std
variable {κ ν : Type} {cmp : κ → κ → Ordering} [TransCmp cmp] [LawfulEqCmp cmp]

theorem find?_insert_self (m : SortedMap cmp ν) (k : κ) (v : ν) :
    (m.insert k v).find? k = some v := by
  simp [find?_insert, ReflCmp.compare_self]

theorem find?_insert_of_ne (m : SortedMap cmp ν) {k x : κ} (v : ν) (ne : x ≠ k) :
    (m.insert k v).find? x = m.find? x := by
  have differ : cmp x k ≠ .eq := fun same => ne (LawfulEqCmp.eq_of_compare same)
  simp [find?_insert, differ]

theorem find?_erase_self (m : SortedMap cmp ν) (k : κ) : (m.erase k).find? k = none := by
  simp [find?_erase, ReflCmp.compare_self]

theorem find?_erase_of_ne (m : SortedMap cmp ν) {k x : κ} (ne : x ≠ k) :
    (m.erase k).find? x = m.find? x := by
  have differ : cmp x k ≠ .eq := fun same => ne (LawfulEqCmp.eq_of_compare same)
  simp [find?_erase, differ]

theorem findEntry_eq_some_iff {k : κ} {v : ν} {entries : List (κ × ν)}
    (sorted : entries.Pairwise fun a b => cmp a.1 b.1 = .lt) :
    findEntry cmp k entries = some v ↔ (k, v) ∈ entries := by
  induction entries with
  | nil => simp [findEntry]
  | cons head rest ih =>
    obtain ⟨key, value⟩ := head
    rw [List.pairwise_cons] at sorted
    obtain ⟨above, sortedRest⟩ := sorted
    cases place : cmp k key with
    | lt =>
      -- every entry lies above `k`, so none is under it
      have absent : (k, v) ∉ (key, value) :: rest := by
        intro member
        rcases List.mem_cons.1 member with same | member
        · obtain ⟨rfl, _⟩ := Prod.mk.inj same
          simp [ReflCmp.compare_self] at place
        · have := TransCmp.lt_trans place (above _ member)
          simp [ReflCmp.compare_self] at this
      simp [findEntry, place, absent]
    | eq =>
      cases LawfulEqCmp.eq_of_compare place
      have absent : (k, v) ∉ rest := by
        intro member
        have := above _ member
        simp [ReflCmp.compare_self] at this
      simp [findEntry, place, absent, eq_comm]
    | gt =>
      have differ : k ≠ key := by
        rintro rfl
        simp [ReflCmp.compare_self] at place
      simp [findEntry, place, ih sortedRest, differ]

theorem find?_eq_some_iff {m : SortedMap cmp ν} {k : κ} {v : ν} :
    m.find? k = some v ↔ (k, v) ∈ m.entries :=
  findEntry_eq_some_iff m.sorted

theorem find?_eq_none_iff {m : SortedMap cmp ν} {k : κ} :
    m.find? k = none ↔ k ∉ m.entries.map Prod.fst := by
  constructor
  · intro absent member
    obtain ⟨⟨key, value⟩, mem, rfl⟩ := List.mem_map.1 member
    simp [find?_eq_some_iff.2 mem] at absent
  · intro absent
    cases found : m.find? k with
    | none => rfl
    | some v => exact absurd (List.mem_map.2 ⟨(k, v), find?_eq_some_iff.1 found, rfl⟩) absent

omit [TransCmp cmp] [LawfulEqCmp cmp] in
theorem pairwise_keys (m : SortedMap cmp ν) : m.keys.Pairwise fun a b => cmp a b = .lt :=
  List.pairwise_map.2 m.sorted

omit [TransCmp cmp] in
theorem nodup_of_ascends {keys : List κ} (ascends : keys.Pairwise fun a b => cmp a b = .lt) :
    keys.Nodup := by
  apply ascends.imp
  intro a b below same
  simp [same, ReflCmp.compare_self] at below

omit [TransCmp cmp] in
theorem nodup_keys (m : SortedMap cmp ν) : (m.entries.map Prod.fst).Nodup :=
  nodup_of_ascends m.pairwise_keys

theorem find?_foldl_erase_of_not_mem {m : SortedMap cmp ν} {keys : List κ} {k : κ}
    (absent : k ∉ keys) : (keys.foldl (fun s key => s.erase key) m).find? k = m.find? k := by
  induction keys generalizing m with
  | nil => rfl
  | cons key rest ih =>
    simp only [List.mem_cons, not_or] at absent
    simp [ih absent.2, find?_erase_of_ne m absent.1]

theorem find?_foldl_erase_of_mem {m : SortedMap cmp ν} {keys : List κ} {k : κ} (mem : k ∈ keys) :
    (keys.foldl (fun s key => s.erase key) m).find? k = none := by
  induction keys generalizing m with
  | nil => cases mem
  | cons key rest ih =>
    by_cases later : k ∈ rest
    · exact ih later
    · obtain rfl : k = key := by simpa [later] using mem
      simp [find?_foldl_erase_of_not_mem later, find?_erase_self]

def under (cmp : κ → κ → Ordering) (k : κ) (pairs : List (κ × ν)) : List (κ × ν) :=
  pairs.filter fun pair => cmp k pair.1 == .eq

def lastListed (cmp : κ → κ → Ordering) (pairs : List (κ × ν)) (k : κ) : Option ν :=
  (under cmp k pairs).getLast?.map Prod.snd

omit [TransCmp cmp] [LawfulEqCmp cmp] in
theorem lastListed_map {μ : Type} (f : ν → μ) (pairs : List (κ × ν)) (k : κ) :
    lastListed cmp (pairs.map fun pair => (pair.1, f pair.2)) k =
      (lastListed cmp pairs k).map f := by
  unfold lastListed under
  rw [List.filter_map, List.getLast?_map, Option.map_map, Option.map_map]
  rfl

theorem find?_foldl_insert (m : SortedMap cmp ν) (pairs : List (κ × ν)) (k : κ) :
    (pairs.foldl (fun s pair => s.insert pair.1 pair.2) m).find? k =
      (lastListed cmp pairs k).or (m.find? k) := by
  induction pairs generalizing m with
  | nil => rfl
  | cons pair rest ih =>
    rw [List.foldl_cons, ih, find?_insert]
    unfold lastListed under
    by_cases here : cmp k pair.1 = .eq
    · rw [List.filter_cons_of_pos (by rw [here]; rfl), List.getLast?_cons, if_pos here]
      cases (rest.filter fun pair => cmp k pair.1 == .eq).getLast? <;> rfl
    · rw [List.filter_cons_of_neg (by simpa using here), if_neg here]

omit [TransCmp cmp] in
theorem lastListed_eq_none_iff {pairs : List (κ × ν)} {k : κ} :
    lastListed cmp pairs k = none ↔ k ∉ pairs.map Prod.fst := by
  rw [lastListed, Option.map_eq_none_iff, List.getLast?_eq_none_iff, under, List.filter_eq_nil_iff]
  constructor
  · intro none mem
    obtain ⟨pair, listed, rfl⟩ := List.mem_map.1 mem
    exact none pair listed (by simp [ReflCmp.compare_self])
  · intro absent pair listed same
    cases LawfulEqCmp.eq_of_compare (eq_of_beq same)
    exact absent (List.mem_map_of_mem listed)

theorem find?_foldl_insert_of_not_mem {m : SortedMap cmp ν} {pairs : List (κ × ν)} {k : κ}
    (absent : k ∉ pairs.map Prod.fst) :
    (pairs.foldl (fun s pair => s.insert pair.1 pair.2) m).find? k = m.find? k := by
  rw [find?_foldl_insert, lastListed_eq_none_iff.2 absent, Option.none_or]

theorem find?_foldl_insert_of_mem {m : SortedMap cmp ν} {pairs : List (κ × ν)} {k : κ} {v : ν}
    (distinct : (pairs.map Prod.fst).Nodup) (mem : (k, v) ∈ pairs) :
    (pairs.foldl (fun s pair => s.insert pair.1 pair.2) m).find? k = some v := by
  induction pairs generalizing m with
  | nil => cases mem
  | cons pair rest ih =>
    rw [List.map_cons, List.nodup_cons] at distinct
    rcases List.mem_cons.1 mem with same | mem
    · cases same
      simp [find?_foldl_insert_of_not_mem distinct.1, find?_insert_self]
    · exact ih distinct.2 mem

theorem find?_ofList (pairs : List (κ × ν)) (k : κ) :
    (ofList pairs : SortedMap cmp ν).find? k = lastListed cmp pairs k :=
  (find?_foldl_insert empty pairs k).trans (Option.or_none)

theorem mem_keys_ofList {pairs : List (κ × ν)} {k : κ} :
    k ∈ (ofList pairs : SortedMap cmp ν).keys ↔ k ∈ pairs.map Prod.fst := by
  let m : SortedMap cmp ν := ofList pairs
  have absent : m.find? k = none ↔ k ∉ m.keys := find?_eq_none_iff
  rw [find?_ofList, lastListed_eq_none_iff] at absent
  exact ⟨fun mem => Classical.byContradiction fun none => absent.1 none mem,
    fun mem => Classical.byContradiction fun none => absent.2 none mem⟩

theorem ext_keys {a b : SortedMap cmp Unit} (same : ∀ k, k ∈ a.keys ↔ k ∈ b.keys) : a = b := by
  refine ext_find? fun k => ?_
  have left : a.find? k = none ↔ k ∉ a.keys := find?_eq_none_iff
  have right : b.find? k = none ↔ k ∉ b.keys := find?_eq_none_iff
  cases inLeft : a.find? k with
  | none =>
    have absent : k ∉ b.keys := fun mem => left.1 inLeft ((same k).2 mem)
    exact (right.2 absent).symm
  | some v =>
    cases inRight : b.find? k with
    | none =>
      have absent : k ∉ a.keys := fun mem => right.1 inRight ((same k).1 mem)
      cases inLeft.symm.trans (left.2 absent)
    | some w => rfl

/-- A map depends on the order of the pairs that it is made from only within each key. -/
theorem ofList_eq_of_under {pairs pairs' : List (κ × ν)}
    (same : ∀ k, under cmp k pairs' = under cmp k pairs) :
    (ofList pairs' : SortedMap cmp ν) = ofList pairs := by
  refine ext_find? fun k => ?_
  rw [find?_ofList, find?_ofList, lastListed, lastListed, same k]

theorem ofList_of_perm {m : SortedMap cmp ν} {pairs : List (κ × ν)} (perm : pairs.Perm m.entries) :
    ofList pairs = m := by
  have distinct : (pairs.map Prod.fst).Nodup := (perm.map Prod.fst).nodup_iff.2 m.nodup_keys
  refine ext_find? fun k => ?_
  cases found : m.find? k with
  | some v =>
    exact find?_foldl_insert_of_mem distinct (perm.mem_iff.2 (find?_eq_some_iff.1 found))
  | none =>
    have absent : k ∉ pairs.map Prod.fst := fun mem =>
      find?_eq_none_iff.1 found ((perm.map Prod.fst).mem_iff.1 mem)
    exact find?_foldl_insert_of_not_mem absent

def withValue (cmp : κ → κ → Ordering) (k : κ) (v : ν) (pair : κ × ν) : κ × ν :=
  if cmp k pair.1 = .eq then (pair.1, v) else pair

omit [TransCmp cmp] [LawfulEqCmp cmp] in
theorem fst_withValue (k : κ) (v : ν) (pair : κ × ν) : (withValue cmp k v pair).1 = pair.1 := by
  unfold withValue
  split <;> rfl

omit [TransCmp cmp] in
theorem insertEntry_of_found {k : κ} (v : ν)
    {entries : List (κ × ν)} (sorted : entries.Pairwise fun a b => cmp a.1 b.1 = .lt)
    (found : (findEntry cmp k entries).isSome) :
    insertEntry cmp k v entries = entries.map (withValue cmp k v) := by
  induction entries with
  | nil => simp [findEntry] at found
  | cons head rest ih =>
    obtain ⟨key, value⟩ := head
    rw [List.pairwise_cons] at sorted
    cases place : cmp k key with
    | lt => simp [findEntry, place] at found
    | eq =>
      cases LawfulEqCmp.eq_of_compare place
      have others : rest.map (withValue cmp k v) = rest.map id := by
        apply List.map_congr_left
        intro pair inside
        simp [withValue, sorted.1 pair inside]
      simp [insertEntry, withValue, place, others]
    | gt =>
      have later : (findEntry cmp k rest).isSome := by simpa [findEntry, place] using found
      simp [insertEntry, withValue, place, ih sorted.2 later]

theorem entries_insert_of_contains {m : SortedMap cmp ν} {k : κ} (v : ν)
    (found : m.contains k = true) :
    (m.insert k v).entries = m.entries.map (withValue cmp k v) :=
  insertEntry_of_found v m.sorted found

/-- An insertion puts in one entry, and loses at most one. -/
theorem perm_insertEntry (cmp : κ → κ → Ordering) (k : κ) (v : ν) (entries : List (κ × ν)) :
    ∃ lost, (insertEntry cmp k v entries ++ lost).Perm ((k, v) :: entries) := by
  induction entries with
  | nil => exact ⟨[], .refl _⟩
  | cons head rest ih =>
    obtain ⟨lost, perm⟩ := ih
    unfold insertEntry
    split
    · exact ⟨[], by simp⟩
    · refine ⟨[head], List.Perm.cons _ ?_⟩
      exact List.perm_append_comm
    · refine ⟨lost, ?_⟩
      exact (perm.cons head).trans (.swap (k, v) head rest)

omit [LawfulEqCmp cmp] in
theorem perm_foldl_insert (m : SortedMap cmp ν) (pairs : List (κ × ν)) :
    ∃ lost, ((pairs.foldl (fun s pair => s.insert pair.1 pair.2) m).entries ++ lost).Perm
      (m.entries ++ pairs) := by
  induction pairs generalizing m with
  | nil => exact ⟨[], .refl _⟩
  | cons pair rest ih =>
    obtain ⟨lost, later⟩ := ih (m.insert pair.1 pair.2)
    obtain ⟨lost', first⟩ := perm_insertEntry cmp pair.1 pair.2 m.entries
    refine ⟨lost ++ lost', ?_⟩
    rw [List.foldl_cons, ← List.append_assoc]
    have inserted := later.append_right lost'
    have gathered := (first.append_right rest).trans List.perm_middle.symm
    refine inserted.trans (.trans ?_ gathered)
    -- the entries that the insertion left, what it lost, and the pairs still to come
    change (insertEntry cmp pair.1 pair.2 m.entries ++ rest ++ lost').Perm _
    rw [List.append_assoc, List.append_assoc]
    exact List.perm_append_comm.append_left _

omit [LawfulEqCmp cmp] in
theorem perm_ofList (pairs : List (κ × ν)) :
    ∃ lost, ((ofList pairs : SortedMap cmp ν).entries ++ lost).Perm pairs :=
  perm_foldl_insert empty pairs

theorem ofList_of_perm_keys {m : SortedMap cmp Unit} {keys : List κ} (perm : keys.Perm m.keys) :
    ofList (keys.map fun k => (k, ())) = m := by
  have entries : m.keys.map (fun k => (k, ())) = m.entries := by
    unfold SortedMap.keys
    rw [List.map_map]
    exact List.map_id m.entries
  have rearranged := perm.map fun k => (k, ())
  rw [entries] at rearranged
  exact ofList_of_perm rearranged

def weighEntries (weight : κ → ν → Nat) : List (κ × ν) → Nat
  | [] => 0
  | entry :: rest => weight entry.1 entry.2 + weighEntries weight rest

def weigh (weight : κ → ν → Nat) (m : SortedMap cmp ν) : Nat := weighEntries weight m.entries

omit [TransCmp cmp] in
theorem weighEntries_insertEntry (weight : κ → ν → Nat) (k : κ) (v : ν) (entries : List (κ × ν)) :
    weighEntries weight (insertEntry cmp k v entries) +
        ((findEntry cmp k entries).map (weight k)).getD 0 =
      weighEntries weight entries + weight k v := by
  induction entries with
  | nil => simp [insertEntry, findEntry, weighEntries]
  | cons head rest ih =>
    obtain ⟨key, value⟩ := head
    cases place : cmp k key with
    | lt =>
      simp only [insertEntry, findEntry, place, weighEntries, Option.map_none, Option.getD_none]
      omega
    | eq =>
      cases LawfulEqCmp.eq_of_compare place
      simp only [insertEntry, findEntry, place, weighEntries, Option.map_some, Option.getD_some]
      omega
    | gt =>
      simp only [insertEntry, findEntry, place, weighEntries]
      omega

theorem weigh_insert (weight : κ → ν → Nat) (m : SortedMap cmp ν) (k : κ) (v : ν) :
    weigh weight (m.insert k v) + ((m.find? k).map (weight k)).getD 0 =
      weigh weight m + weight k v :=
  weighEntries_insertEntry weight k v m.entries

omit [TransCmp cmp] in
theorem weighEntries_eraseEntry (weight : κ → ν → Nat) (k : κ) (entries : List (κ × ν)) :
    weighEntries weight (eraseEntry cmp k entries) +
        ((findEntry cmp k entries).map (weight k)).getD 0 =
      weighEntries weight entries := by
  induction entries with
  | nil => simp [eraseEntry, findEntry, weighEntries]
  | cons head rest ih =>
    obtain ⟨key, value⟩ := head
    cases place : cmp k key with
    | lt => simp [eraseEntry, findEntry, place]
    | eq =>
      cases LawfulEqCmp.eq_of_compare place
      simp only [eraseEntry, findEntry, place, weighEntries, Option.map_some, Option.getD_some]
      omega
    | gt =>
      simp only [eraseEntry, findEntry, place, weighEntries]
      omega

omit [TransCmp cmp] in
theorem weigh_erase (weight : κ → ν → Nat) (m : SortedMap cmp ν) (k : κ) :
    weigh weight (m.erase k) + ((m.find? k).map (weight k)).getD 0 = weigh weight m :=
  weighEntries_eraseEntry weight k m.entries

end ContractStore.SortedMap

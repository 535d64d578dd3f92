import ContractStore.Proofs.InTurn
import ContractStore.Proofs.Store.Overlay
import ContractStore.Store.Layers

/-!
Overlays behave like copies. To open an overlay is to copy what is stored, to commit it is to put
the copy in place of what was copied, and to discard it is to throw the copy away. `Layers.Shows`
relates layers of pending writes to a stack of whole copies; one operation keeps it and gets the
same reply (`perform_of_shows`), and so does a run (`inTurn_of_shows`).
-/
namespace ContractStore

inductive LayerOp where
  | get (key : Bytes)
  | insert (key value : Bytes)
  | delete (key : Bytes)
  | applyBatch (batch : Batch)
  | begin
  | commit
  | discard
  deriving DecidableEq, Repr

inductive LayerReply where
  | found (value : Option Bytes)
  | done
  | refused (cause : StateError)
  | nothingOpen
  deriving DecidableEq, Repr

/-! The two sides: layers of overlays, and a stack of copies. -/

namespace Layers
variable {σ : Type} [Store σ]

def changed (layers : Layers σ) : Except StateError (Layers σ) → LayerReply × Layers σ
  | .ok after => (.done, after)
  | .error cause => (.refused cause, layers)

def perform (op : LayerOp) (layers : Layers σ) : LayerReply × Layers σ :=
  match op with
  | .get key =>
    match layers.get key with
    | .ok value => (.found value, layers)
    | .error cause => (.refused cause, layers)
  | .insert key value => layers.changed (layers.insert key value)
  | .delete key => layers.changed (layers.delete key)
  | .applyBatch batch => layers.changed (layers.applyBatch batch)
  | .begin => (.done, layers.begin)
  | .commit =>
    match layers.commit with
    | none => (.nothingOpen, layers)
    | some (.ok _, below) => (.done, below)
    | some (.error cause, below) => (.refused cause, below)
  | .discard =>
    match layers.discard with
    | none => (.nothingOpen, layers)
    | some below => (.done, below)

def after (store : σ) (ops : List LayerOp) : Layers σ := (inTurn perform ops (ground store)).2

end Layers

structure Snapshots where
  top : MemoryStore
  below : List MemoryStore

namespace Snapshots

def perform (op : LayerOp) (copies : Snapshots) : LayerReply × Snapshots :=
  match op, copies with
  | .get key, ⟨top, below⟩ => (.found (top.find? key), ⟨top, below⟩)
  | .insert key value, ⟨top, below⟩ => (.done, ⟨top.insert key value, below⟩)
  | .delete key, ⟨top, below⟩ => (.done, ⟨top.erase key, below⟩)
  | .applyBatch batch, ⟨top, below⟩ => (.done, ⟨MemoryStore.applyBatch top batch, below⟩)
  | .begin, ⟨top, below⟩ => (.done, ⟨top, top :: below⟩)
  | .commit, ⟨top, _ :: below⟩ => (.done, ⟨top, below⟩)
  | .discard, ⟨_, under :: below⟩ => (.done, ⟨under, below⟩)
  | .commit, ⟨top, []⟩ => (.nothingOpen, ⟨top, []⟩)
  | .discard, ⟨top, []⟩ => (.nothingOpen, ⟨top, []⟩)

def bottom (copies : Snapshots) : MemoryStore :=
  (copies.top :: copies.below).getLast (List.cons_ne_nil _ _)

end Snapshots

namespace Overlay
variable {σ : Type}

def withBatch (pending : ByteMap (Option Bytes)) (batch : Batch) : ByteMap (Option Bytes) :=
  let deleted := batch.deletes.foldl (fun pending key => pending.insert key none) pending
  batch.inserts.foldl (fun pending entry => pending.insert entry.1 (some entry.2)) deleted

theorem applyBatch_mk (base : σ) (pending : ByteMap (Option Bytes)) (batch : Batch) :
    (Overlay.mk base pending).applyBatch batch = ⟨base, withBatch pending batch⟩ := by
  unfold applyBatch withBatch
  rw [List.foldl_hom (Overlay.mk base) fun _ _ => rfl,
    List.foldl_hom (Overlay.mk base) fun _ _ => rfl]

theorem shows_applyBatch {o : Overlay MemoryStore} {store : MemoryStore} (h : o.Shows store)
    (batch : Batch) : (o.applyBatch batch).Shows (MemoryStore.applyBatch store batch) := by
  unfold applyBatch MemoryStore.applyBatch
  refine List.foldl_rel (List.foldl_rel h ?_) ?_
  · intro key _ o store shows
    exact shows_delete shows key
  · intro entry _ o store shows
    exact shows_insert shows entry.1 entry.2

end Overlay

namespace Layers

/-- Each overlay shows the copy at its level, over the copy below it. -/
inductive Shows : Layers MemoryStore → Snapshots → Prop where
  | ground (store : MemoryStore) : Shows (.ground store) ⟨store, []⟩
  | overlay {base : Layers MemoryStore} {pending : ByteMap (Option Bytes)}
      {under top : MemoryStore} {below : List MemoryStore} (lower : Shows base ⟨under, below⟩)
      (upper : Overlay.Shows ⟨under, pending⟩ top) :
      Shows (.overlay ⟨base, pending⟩) ⟨top, under :: below⟩

theorem get_of_shows {layers : Layers MemoryStore} {copies : Snapshots} (h : layers.Shows copies)
    (key : Bytes) : layers.get key = .ok (copies.top.find? key) := by
  induction h with
  | ground store => rfl
  | overlay lower upper ih =>
    rename_i base pending under top below
    -- what is pending is read first, on layers as on a single overlay of the copy below
    have one := Overlay.get_eq_lookup ⟨under, pending⟩ key
    rw [upper key] at one
    rw [get, ih]
    exact one

section Changes
variable {layers : Layers MemoryStore} {top : MemoryStore} {below : List MemoryStore}

theorem insert_of_shows (h : layers.Shows ⟨top, below⟩) (key value : Bytes) :
    ∃ after, layers.insert key value = .ok after ∧ after.Shows ⟨top.insert key value, below⟩ := by
  cases h with
  | ground store => exact ⟨_, rfl, .ground _⟩
  | overlay lower upper => exact ⟨_, rfl, .overlay lower (Overlay.shows_insert upper key value)⟩

theorem delete_of_shows (h : layers.Shows ⟨top, below⟩) (key : Bytes) :
    ∃ after, layers.delete key = .ok after ∧ after.Shows ⟨top.erase key, below⟩ := by
  cases h with
  | ground store => exact ⟨_, rfl, .ground _⟩
  | overlay lower upper => exact ⟨_, rfl, .overlay lower (Overlay.shows_delete upper key)⟩

theorem applyBatch_of_shows (h : layers.Shows ⟨top, below⟩) (batch : Batch) :
    ∃ after, layers.applyBatch batch = .ok after ∧
      after.Shows ⟨MemoryStore.applyBatch top batch, below⟩ := by
  cases h with
  | ground store => exact ⟨_, rfl, .ground _⟩
  | overlay lower upper =>
    have shown := Overlay.shows_applyBatch upper batch
    rw [Overlay.applyBatch_mk] at shown
    refine ⟨_, rfl, ?_⟩
    rw [Overlay.applyBatch_mk]
    exact .overlay lower shown

theorem commit_of_shows {under : MemoryStore} (h : layers.Shows ⟨top, under :: below⟩) :
    ∃ batch after, layers.commit = some (.ok batch, after) ∧ after.Shows ⟨top, below⟩ := by
  cases h with
  | overlay lower upper =>
    rename_i base pending
    obtain ⟨after, applied, shows⟩ := applyBatch_of_shows lower (Overlay.mk under pending).batch
    -- the writes of the top overlay make of the copy below the copy on top
    have copied : MemoryStore.applyBatch under (Overlay.mk under pending).batch = top :=
      congrArg Prod.snd (Overlay.commit_of_shows upper)
    rw [copied] at shows
    refine ⟨(Overlay.mk base pending).batch, after, ?_, shows⟩
    have done : Store.applyBatch base (Overlay.mk base pending).batch = .ok after := applied
    simp only [commit, Overlay.commit, done]

end Changes

theorem perform_of_shows (op : LayerOp) {layers : Layers MemoryStore} {copies : Snapshots}
    (h : layers.Shows copies) :
    (perform op layers).1 = (Snapshots.perform op copies).1 ∧
      (perform op layers).2.Shows (Snapshots.perform op copies).2 := by
  obtain ⟨top, below⟩ := copies
  cases op with
  | get key =>
    simp only [perform, get_of_shows h]
    exact ⟨rfl, h⟩
  | insert key value =>
    obtain ⟨after, done, shows⟩ := insert_of_shows h key value
    simp only [perform, done]
    exact ⟨rfl, shows⟩
  | delete key =>
    obtain ⟨after, done, shows⟩ := delete_of_shows h key
    simp only [perform, done]
    exact ⟨rfl, shows⟩
  | applyBatch batch =>
    obtain ⟨after, done, shows⟩ := applyBatch_of_shows h batch
    simp only [perform, done]
    exact ⟨rfl, shows⟩
  | begin => exact ⟨rfl, .overlay h (Overlay.shows_new top)⟩
  | commit =>
    cases below with
    | nil =>
      cases h
      exact ⟨rfl, .ground _⟩
    | cons under below =>
      obtain ⟨batch, after, done, shows⟩ := commit_of_shows h
      simp only [perform, done]
      exact ⟨rfl, shows⟩
  | discard =>
    cases h with
    | ground => exact ⟨rfl, .ground _⟩
    | overlay lower upper => exact ⟨rfl, lower⟩

theorem inTurn_of_shows (ops : List LayerOp) {layers : Layers MemoryStore} {copies : Snapshots}
    (h : layers.Shows copies) :
    (inTurn perform ops layers).1 = (inTurn Snapshots.perform ops copies).1 ∧
      (inTurn perform ops layers).2.Shows (inTurn Snapshots.perform ops copies).2 :=
  inTurn_related Shows (fun op _ _ shows => perform_of_shows op shows) ops h

theorem bottom_of_shows {layers : Layers MemoryStore} {copies : Snapshots}
    (h : layers.Shows copies) : layers.bottom = copies.bottom := by
  induction h with
  | ground store => rfl
  | overlay lower upper ih => exact ih

/-! What lies below an overlay stays as it is until the overlay is closed. -/

section Levels
variable {σ : Type}

def depth : Layers σ → Nat
  | ground _ => 0
  | overlay ⟨base, _⟩ => base.depth + 1

def floor (level : Nat) : Layers σ → Layers σ
  | ground store => ground store
  | overlay ⟨base, pending⟩ =>
    if level ≤ base.depth then base.floor level else overlay ⟨base, pending⟩

theorem floor_overlay {level : Nat} {base : Layers σ} (pending : ByteMap (Option Bytes))
    (low : level ≤ base.depth) : (overlay ⟨base, pending⟩).floor level = base.floor level := by
  rw [floor, if_pos low]

variable [Store σ]

theorem floor_of_applyBatch {layers after : Layers σ} {batch : Batch} {level : Nat}
    (done : layers.applyBatch batch = .ok after) (low : level < after.depth) :
    after.floor level = layers.floor level := by
  cases layers with
  | ground store =>
    change ground <$> Store.applyBatch store batch = _ at done
    cases applied : Store.applyBatch store batch with
    | error cause =>
      rw [applied] at done
      cases done
    | ok written =>
      rw [applied] at done
      cases done
      cases low
  | overlay top =>
    obtain ⟨base, pending⟩ := top
    rw [applyBatch, Overlay.applyBatch_mk] at done
    cases done
    have low : level ≤ base.depth := Nat.le_of_lt_succ low
    rw [floor_overlay _ low, floor_overlay _ low]

/-- An operation that leaves a level under an overlay leaves what is there. -/
theorem floor_of_perform (op : LayerOp) {layers : Layers σ} {level : Nat}
    (low : level < layers.depth) (low' : level < (perform op layers).2.depth) :
    (perform op layers).2.floor level = layers.floor level := by
  cases layers with
  | ground store => cases low
  | overlay top =>
    obtain ⟨base, pending⟩ := top
    have under : level ≤ base.depth := Nat.le_of_lt_succ low
    cases op with
    | get key =>
      simp only [perform]
      split <;> rfl
    | insert key value => exact (floor_overlay _ under).trans (floor_overlay _ under).symm
    | delete key => exact (floor_overlay _ under).trans (floor_overlay _ under).symm
    | applyBatch batch => exact floor_of_applyBatch rfl low'
    | begin => exact floor_overlay .empty (Nat.le_of_lt low)
    | commit =>
      rw [floor_overlay _ under]
      simp only [perform, commit, Overlay.commit] at low' ⊢
      cases done : Store.applyBatch base (Overlay.mk base pending).batch with
      | error cause => rfl
      | ok after =>
        simp only [done] at low' ⊢
        exact floor_of_applyBatch done low'
    | discard => exact (floor_overlay _ under).symm

theorem floor_of_inTurn (ops : List LayerOp) {layers : Layers σ} {level : Nat}
    (low : ∀ n ≤ ops.length, level < (inTurn perform (ops.take n) layers).2.depth) :
    (inTurn perform ops layers).2.floor level = layers.floor level := by
  induction ops generalizing layers with
  | nil => rfl
  | cons op rest ih =>
    have now : level < layers.depth := low 0 (Nat.zero_le _)
    have next : level < (perform op layers).2.depth := low 1 (by simp)
    have later (n : Nat) (within : n ≤ rest.length) :
        level < (inTurn perform (rest.take n) (perform op layers).2).2.depth :=
      low (n + 1) (Nat.succ_le_succ within)
    rw [inTurn_cons]
    exact (ih later).trans (floor_of_perform op now next)

end Levels

/-- Whatever is done on overlays, nested to any depth, every reply and the store in the end are
those of the stack of copies; and a level changes only while no overlay is open on it. -/
theorem overlays_are_snapshots (store : MemoryStore) (ops : List LayerOp) :
    (inTurn perform ops (.ground store)).1 = (inTurn Snapshots.perform ops ⟨store, []⟩).1 ∧
      (after store ops).bottom = (inTurn Snapshots.perform ops ⟨store, []⟩).2.bottom ∧
      ∀ earlier later level, ops = earlier ++ later →
        (∀ n ≤ later.length, level < (after store (earlier ++ later.take n)).depth) →
        (after store ops).floor level = (after store earlier).floor level := by
  obtain ⟨same, shows⟩ := inTurn_of_shows ops (.ground store)
  refine ⟨same, bottom_of_shows shows, ?_⟩
  rintro earlier later level rfl low
  simp only [after, inTurn_append] at low ⊢
  exact floor_of_inTurn later low

/-- Under two overlays a key is deleted and another is deleted and inserted by one batch, the inner
overlay is committed and the outer one written to again; the store below them is as it was. -/
theorem store_is_kept_under_overlays :
    let store : MemoryStore := SortedMap.ofList [([1], [10]), ([2], [20])]
    let earlier : List LayerOp := [.begin]
    let later : List LayerOp :=
      [.begin, .delete [1], .applyBatch ⟨[([2], [21])], [[2]]⟩, .commit, .get [1], .insert [1] [11]]
    (∀ n ≤ later.length, 0 < (after store (earlier ++ later.take n)).depth) ∧
      (after store (earlier ++ later)).floor 0 = (after store earlier).floor 0 := by
  intro store earlier later
  have covered : ∀ n ≤ later.length, 0 < (after store (earlier ++ later.take n)).depth := by decide
  exact ⟨covered, (overlays_are_snapshots store (earlier ++ later)).2.2 earlier later 0 rfl covered⟩

end Layers
end ContractStore

import ContractStore.Proofs.Program.WritesLast
import ContractStore.Proofs.Table.Outcome
import ContractStore.Proofs.Table.Singleton
import ContractStore.Store.Refusing

/-!
Operations on tables, singletons and slots are all or nothing. Whatever the store holds and whatever
it refuses, everything that can fail comes before the one write: an operation that fails leaves the
store as it was, and one that succeeds has changed at most the raw key of what it writes
(`TypedOp.all_or_nothing`).
-/
namespace ContractStore

/-- A view of what a store holds. The store may refuse an insert or a delete; one that it carries
out shows under its key alone. -/
structure Contents (σ : Type) [Store σ] where
  held : σ → Bytes → Option Bytes
  insert {before after : σ} {key value other : Bytes}
    (done : Store.insert before key value = .ok after) (apart : other ≠ key) :
    held after other = held before other
  delete {before after : σ} {key other : Bytes} (done : Store.delete before key = .ok after)
    (apart : other ≠ key) : held after other = held before other

namespace Contents
variable {σ : Type} [Store σ]

def memory : Contents MemoryStore where
  held store key := store.find? key
  insert {before _ _ value _} done apart := by
    cases done
    exact SortedMap.find?_insert_of_ne before value apart
  delete {before _ _ _} done apart := by
    cases done
    exact SortedMap.find?_erase_of_ne before apart

@[simp] theorem held_memory (store : MemoryStore) (key : Bytes) :
    memory.held store key = store.find? key := rfl

def refusing (contents : Contents σ) : Contents (RefusingStore σ) where
  held store key := contents.held store.inner key
  insert done apart := by
    obtain ⟨_, _, permitted⟩ := bind_eq_ok done
    obtain ⟨inner, inserted, same⟩ := bind_eq_ok permitted
    cases same
    exact contents.insert inserted apart
  delete done apart := by
    obtain ⟨_, _, permitted⟩ := bind_eq_ok done
    obtain ⟨inner, deleted, same⟩ := bind_eq_ok permitted
    cases same
    exact contents.delete deleted apart

@[simp] theorem held_refusing (contents : Contents σ) (store : RefusingStore σ) (key : Bytes) :
    contents.refusing.held store key = contents.held store.inner key := rfl

theorem of_effect (contents : Contents σ) {n : Namespace} {place : Bytes → Prop} {before after : σ}
    (effect : n.Effect place before after) :
    after = before ∨ ∃ raw, place raw ∧
      ∀ other, other ≠ raw → contents.held after other = contents.held before other := by
  cases effect with
  | none => exact .inl rfl
  | inserted own _ done =>
    exact .inr ⟨_, own, fun other apart => contents.insert done apart⟩
  | deleted own done =>
    exact .inr ⟨_, own, fun other apart => contents.delete done apart⟩

end Contents

namespace TableOp
variable {schema : Schema}

def written : TableOp schema → Option schema.Key
  | has _ | get _ | getOrDefault _ _ => none
  | getOrCreate _ fallback => some (schema.keyOf fallback)
  | insert fresh modify => some (schema.keyOf (modify fresh))
  | update key _ | remove key => some key

end TableOp

namespace SingletonOp
variable {schema : SingletonSchema}

def writes : SingletonOp schema → Bool
  | exists? | get | getOrDefault _ => false
  | getOrCreate _ | update _ | remove => true

end SingletonOp

namespace SlotOp
variable {type : WireType}

def writes : SlotOp type → Bool
  | exists? | get | getOrDefault _ => false
  | put _ => true

end SlotOp

inductive TypedOp where
  | table {schema : Schema} (table : Table schema) (op : TableOp schema)
  | singleton {schema : SingletonSchema} (singleton : Singleton schema) (op : SingletonOp schema)
  | slot {type : WireType} (slot : Slot) (op : SlotOp type)

namespace TypedOp

abbrev Result : TypedOp → Type
  | table _ op => op.Result
  | singleton _ op => op.Result
  | slot _ op => op.Result

def action : (op : TypedOp) → Action op.Result
  | table t op => op.action t
  | singleton s op => op.action s
  | slot s op => op.action s

def WritesAt (n : Namespace) (raw : Bytes) : TypedOp → Prop
  | @table schema t op => ∃ key, op.written = some key ∧ n.RowAt schema.keyType t.name key raw
  | singleton s op => op.writes = true ∧ n.SingletonAt s.name raw
  | slot s op => op.writes = true ∧ n.slotKey s.name = .ok raw

def Reads : TypedOp → Prop
  | table _ op => op.written = none
  | singleton _ op => op.writes = false
  | slot _ op => op.writes = false

end TypedOp

section Rows
variable {n : Namespace} {place : Bytes → Prop} {type : WireType} {table : String} {key : Bytes}

theorem readsOnly_ofStored (stored : Option Bytes) : (Row.ofStored type stored).ReadsOnly := by
  cases stored with
  | none => exact readsOnly_pure none
  | some bytes =>
    exact readsOnly_bind (readsOnly_ofCodec (type.unpack bytes)) fun value =>
      readsOnly_pure (some value)

theorem readsOnly_required {α : Type} (place : String) (found : Option α) :
    (Row.required place found).ReadsOnly := by
  cases found with
  | none => exact readsOnly_throw (.state (.keyNotFound place))
  | some value => exact readsOnly_pure value

theorem readsOnly_find (type : WireType) (table : String) (key : Bytes) :
    (Row.find type table key).ReadsOnly :=
  readsOnly_bind (readsOnly_query table key) readsOnly_ofStored

theorem readsOnly_get (type : WireType) (table : String) (key : Bytes) :
    (Row.get type table key).ReadsOnly :=
  readsOnly_bind (readsOnly_find type table key) (readsOnly_required table)

theorem readsOnly_find_slot (s : Slot) (type : WireType) : (s.find type).ReadsOnly :=
  readsOnly_bind (readsOnly_load s.name) readsOnly_ofStored

theorem writesLast_insert_row (row : type.Carrier)
    (there : ∀ raw, n.rowKey table key = .ok raw → place raw) :
    n.WritesLast place (Row.insert type table key row).run :=
  Namespace.writesLast_bind (readsOnly_ofCodec (type.pack row)) fun bytes =>
    Namespace.writesLast_insert bytes there

theorem writesLast_update_row (row : type.Carrier)
    (there : ∀ raw, n.rowKey table key = .ok raw → place raw) :
    n.WritesLast place (Row.update type table key row).run :=
  Namespace.writesLast_bind (readsOnly_ofCodec (type.pack row)) fun bytes =>
    Namespace.writesLast_update bytes there

end Rows

namespace TypedOp
variable {n : Namespace}
open Namespace

theorem writesLast_keyed {α : Type} {place : Bytes → Prop} {type : WireType} {key : type.Carrier}
    {next : Bytes → Action α}
    (later : ∀ packed, type.encode key = .ok packed → n.WritesLast place (next packed).run) :
    n.WritesLast place (Action.ofCodec (type.pack key) >>= next).run := by
  refine writesLast_ofCodec_bind fun packed is => later packed ?_
  rw [← type.pack_eq_encode]
  exact is

theorem writesLast_table {schema : Schema} (t : Table schema) (op : TableOp schema) :
    n.WritesLast (fun raw => (table t op).WritesAt n raw) (op.action t).run := by
  have row {key : schema.Key} {packed : Bytes} (written : op.written = some key)
      (encoded : schema.keyType.encode key = .ok packed) (raw : Bytes)
      (lies : n.rowKey t.name packed = .ok raw) : (table t op).WritesAt n raw :=
    ⟨key, written, packed, encoded, lies⟩
  cases op with
  | has key =>
    refine writesLast_keyed fun packed _ => writesLast_of_reads ?_
    exact readsOnly_bind (readsOnly_query t.name packed) fun bytes => readsOnly_pure _
  | get key =>
    refine writesLast_keyed fun packed _ => writesLast_of_reads ?_
    exact readsOnly_get schema.type t.name packed
  | getOrDefault key fallback =>
    refine writesLast_keyed fun packed _ => writesLast_of_reads ?_
    exact readsOnly_bind (readsOnly_find schema.type t.name packed) fun row => readsOnly_pure _
  | getOrCreate key fallback =>
    refine writesLast_keyed fun packed _ => ?_
    refine writesLast_bind (readsOnly_find schema.type t.name packed) fun found => ?_
    cases found with
    | some stored => exact writesLast_of_reads (readsOnly_pure stored)
    | none =>
      -- the default goes under its own key, whichever key was looked for
      refine writesLast_keyed fun own encoded => ?_
      exact (writesLast_insert_row fallback (row rfl encoded)).then_return fallback
  | insert fresh modify =>
    refine writesLast_keyed fun own encoded => ?_
    exact writesLast_insert_row (modify fresh) (row rfl encoded)
  | update key modify =>
    refine writesLast_keyed fun packed encoded => ?_
    refine writesLast_bind (readsOnly_get schema.type t.name packed) fun stored => ?_
    exact writesLast_update_row (modify stored) (row rfl encoded)
  | remove key =>
    exact writesLast_keyed fun packed encoded => writesLast_delete (row rfl encoded)

theorem writesLast_singleton {schema : SingletonSchema} (s : Singleton schema)
    (op : SingletonOp schema) :
    n.WritesLast (fun raw => (singleton s op).WritesAt n raw) (op.action s).run := by
  have row {packed : Bytes} (writes : op.writes = true)
      (encoded : (WireType.int .i32).encode singletonId = .ok packed) (raw : Bytes)
      (lies : n.rowKey s.name packed = .ok raw) : (singleton s op).WritesAt n raw :=
    ⟨writes, packed, encoded, lies⟩
  cases op with
  | exists? =>
    refine writesLast_keyed fun packed _ => writesLast_of_reads ?_
    exact readsOnly_bind (readsOnly_find schema.type s.name packed) fun row => readsOnly_pure _
  | get =>
    refine writesLast_keyed fun packed _ => writesLast_of_reads ?_
    exact readsOnly_get schema.type s.name packed
  | getOrDefault fallback =>
    refine writesLast_keyed fun packed _ => writesLast_of_reads ?_
    exact readsOnly_bind (readsOnly_find schema.type s.name packed) fun row => readsOnly_pure _
  | getOrCreate fallback =>
    refine writesLast_keyed fun packed encoded => ?_
    refine writesLast_bind (readsOnly_find schema.type s.name packed) fun found => ?_
    cases found with
    | some stored => exact writesLast_of_reads (readsOnly_pure stored)
    | none =>
      have inserts := writesLast_insert_row (schema.normalize fallback) (row rfl encoded)
      exact inserts.then_return (schema.normalize fallback)
  | update modify =>
    refine writesLast_keyed fun packed encoded => ?_
    refine writesLast_bind (readsOnly_get schema.type s.name packed) fun stored => ?_
    exact writesLast_update_row (schema.normalize (modify stored)) (row rfl encoded)
  | remove =>
    exact writesLast_keyed fun packed encoded => writesLast_delete (row rfl encoded)

theorem writesLast_slot {type : WireType} (s : Slot) (op : SlotOp type) :
    n.WritesLast (fun raw => (slot s op).WritesAt n raw) (op.action s).run := by
  cases op with
  | put value =>
    refine writesLast_keyed fun bytes _ => writesLast_save bytes fun raw lies => ?_
    exact ⟨rfl, lies⟩
  | exists? =>
    refine writesLast_of_reads ?_
    exact readsOnly_bind (readsOnly_load s.name) fun bytes => readsOnly_pure _
  | get =>
    refine writesLast_of_reads ?_
    exact readsOnly_bind (readsOnly_find_slot s type) (readsOnly_required s.name)
  | getOrDefault fallback =>
    refine writesLast_of_reads ?_
    exact readsOnly_bind (readsOnly_find_slot s type) fun value => readsOnly_pure _

theorem writesLast (op : TypedOp) : n.WritesLast (fun raw => op.WritesAt n raw) op.action.run := by
  cases op with
  | table t op => exact writesLast_table t op
  | singleton s op => exact writesLast_singleton s op
  | slot s op => exact writesLast_slot s op

theorem not_writesAt_of_reads {op : TypedOp} (reads : op.Reads) (raw : Bytes) :
    ¬ op.WritesAt n raw := by
  intro writes
  cases op with
  | table t op =>
    obtain ⟨key, written, _⟩ := writes
    exact nomatch reads.symm.trans written
  | singleton s op => exact nomatch reads.symm.trans writes.1
  | slot s op => exact nomatch reads.symm.trans writes.1

theorem eq_of_writesAt {op : TypedOp} {raw raw' : Bytes} (h : op.WritesAt n raw)
    (h' : op.WritesAt n raw') : raw = raw' := by
  cases op with
  | table t op =>
    obtain ⟨key, written, lies⟩ := h
    obtain ⟨key', written', lies'⟩ := h'
    cases written.symm.trans written'
    exact lies.raw_unique lies'
  | singleton s op => exact h.2.raw_unique h'.2
  | slot s op => exact Except.ok.inj (h.2.symm.trans h'.2)

/-- An operation that fails leaves the store; one that succeeds leaves it as well, or has changed
the one raw key at which it writes; and one that only reads never changes the store. -/
theorem all_or_nothing {σ : Type} [Store σ] (contents : Contents σ) (n : Namespace) (op : TypedOp)
    (store : σ) :
    let done := n.perform op.action store
    (∀ cause, done.1 = .error cause → done.2 = store) ∧
      (∀ result, done.1 = .ok result → done.2 = store ∨ ∃ raw, op.WritesAt n raw ∧
        ∀ other, other ≠ raw → contents.held done.2 other = contents.held store other) ∧
      (op.Reads → done.2 = store) := by
  intro done
  have effect := op.writesLast.effect (n := n) store
  refine ⟨fun cause failed => op.writesLast.unchanged failed,
    fun result _ => contents.of_effect effect, fun reads => ?_⟩
  rcases contents.of_effect effect with same | ⟨raw, writes, _⟩
  · exact same
  · exact absurd writes (not_writesAt_of_reads reads raw)

/-- A default for bob that is wanted under alice's key, where inserts are refused and where not,
beside a row that does not unpack. -/
theorem default_is_refused_or_lies_under_own_key :
    let n : Namespace := ⟨"o", "t", 100⟩
    let t : Table Token.balanceSchema := ⟨"b"⟩
    let create : TypedOp := .table t (.getOrCreate ⟨"alice"⟩ (Token.Balance.mk ⟨"bob"⟩ 5#64))
    let look : TypedOp := .table t (.get ⟨"x"⟩)
    let rows : MemoryStore := SortedMap.empty.insert [1, 1, 111, 1, 116, 1, 98, 1, 120] [0]
    let closed : RefusingStore MemoryStore := ⟨rows, [.insert]⟩
    let opened : RefusingStore MemoryStore := ⟨rows, []⟩
    let created := n.perform create.action opened
    let bob : Bytes := [1, 1, 111, 1, 116, 1, 98, 3, 98, 111, 98]
    n.perform create.action closed = (.error (.state (.backend "insert refused")), closed) ∧
      created.1 = .ok (Token.Balance.mk ⟨"bob"⟩ 5#64) ∧
        created.2.inner.find? bob = some [2, 3, 98, 111, 98, 5, 0, 0, 0, 0, 0, 0, 0] ∧
          (∀ other, other ≠ bob → created.2.inner.find? other = rows.find? other) ∧
            n.perform look.action closed =
              (.error (.codec (.schemaMismatch "balances" 2 0)), closed) := by
  intro n t create look rows closed opened created bob
  have refused : (n.perform create.action closed).1 =
      .error (.state (.backend "insert refused")) := by rfl
  have succeeded : created.1 = .ok (Token.Balance.mk ⟨"bob"⟩ 5#64) := by rfl
  have written : created.2.inner.find? bob =
      some [2, 3, 98, 111, 98, 5, 0, 0, 0, 0, 0, 0, 0] := by decide +kernel
  have garbled : (n.perform look.action closed).1 =
      .error (.codec (.schemaMismatch "balances" 2 0)) := by rfl
  have lies : create.WritesAt n bob := ⟨⟨"bob"⟩, rfl, [3, 98, 111, 98], by rfl, by rfl⟩
  have kept := (all_or_nothing Contents.memory.refusing n create closed).1 _ refused
  have changes := (all_or_nothing Contents.memory.refusing n create opened).2.1 _ succeeded
  have read := (all_or_nothing Contents.memory.refusing n look closed).2.2 rfl
  refine ⟨Prod.ext refused kept, succeeded, written, ?_, Prod.ext garbled read⟩
  rcases changes with same | ⟨raw, there, frame⟩
  · intro other _
    exact congrArg (fun store => store.inner.find? other) same
  · cases eq_of_writesAt there lies
    simpa only [Contents.held_refusing, Contents.held_memory] using frame

end TypedOp
end ContractStore

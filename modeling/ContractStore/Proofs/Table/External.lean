import ContractStore.Contracts.Token
import ContractStore.Proofs.Name
import ContractStore.Proofs.Program.Action
import ContractStore.Table.External

/-!
What a view of another contract's table shows. Every read of a bound view is an external query under
the three names of its location (`readsFrom_of_location`), and bound to a contract's name it reads
what the contract itself reads (`external_view_agrees_except_on_garbled_rows`), except that it does
not report a row that it cannot unpack. A location that is given by its parts goes through the text
of a name; there an at sign in the contract's part moves the border between the parts
(`bind_reaches_named_contract_up_to_at_sign`).
-/
namespace ContractStore

namespace ExternalTable
variable {schema : Schema}

def lookUp (schema : Schema) (owner contract table : String) (packed : Bytes) :
    Action (Option schema.Record) := do
  Row.ofStored schema.type (← Action.queryExternal owner contract table packed)

/-- Every read is a look-up in one table of one contract, under the packed key. -/
structure ReadsFrom (view : ExternalTable schema) (owner contract table : String) : Prop where
  has (key : schema.Key) :
    ExternalTable.has view key = do
      let row ← lookUp schema owner contract table (← Table.packKey schema key)
      return row.isSome
  get (key : schema.Key) :
    ExternalTable.get view key = do
      Row.required table (← lookUp schema owner contract table (← Table.packKey schema key))
  getOrDefault (key : schema.Key) (fallback : schema.Record) :
    ExternalTable.getOrDefault view key fallback = do
      let row ← lookUp schema owner contract table (← Table.packKey schema key)
      return row.getD fallback

theorem readsFrom_of_location {view : ExternalTable schema} {owner contract table : String}
    (h : view.location = some ⟨owner, contract, table⟩) :
    view.ReadsFrom owner contract table := by
  obtain ⟨location⟩ := view
  cases h
  exact ⟨fun _ => rfl, fun _ => rfl, fun _ _ => rfl⟩

end ExternalTable

namespace View
variable {record : WireType}

theorem bindName_of_contract (view : View record) {contract : Name}
    (is : contract.isContract = true) (table : String) :
    view.bindName contract table =
      (.ok (), ⟨some ⟨contract.account, contract.contract, table⟩⟩) := by
  unfold bindName Location.ofName
  rw [if_pos is]
  rfl

theorem bindName_of_ofName (view : View record) {contract : Name} {limit : Nat} {home : Namespace}
    (owner : Namespace.ofName contract limit = .ok home) (table : String) :
    ∃ bound, view.bindName contract table = (.ok (), bound) ∧
      bound.location = some ⟨home.owner, home.contract, table⟩ := by
  obtain ⟨is, rfl⟩ := Namespace.ofName_eq_ok owner
  exact ⟨_, view.bindName_of_contract is table, rfl⟩

theorem bindName_of_account (view : View record) {contract : Name}
    (account : ¬ contract.isContract = true) (table : String) :
    view.bindName contract table = (.error (.notAContract contract.text), view) := by
  unfold bindName Location.ofName
  rw [if_neg account]
  rfl

end View

/-! Bound by a contract's name. -/

section Owner
variable {σ : Type} [Store σ] (home other : Namespace) (store : σ) {record : WireType}
  {schema : Schema} {table : String}

def Namespace.Finds (table : String) (key : schema.Key) (bytes : Bytes) : Prop :=
  home.perform (do Action.query table (← Table.packKey schema key)) store =
    (.ok (some bytes), store)

theorem perform_queryExternal_eq_query (packed : Bytes) :
    other.perform (Action.queryExternal home.owner home.contract table packed) store =
      home.perform (Action.query table packed) store := rfl

theorem perform_ofCodec_eq {α : Type} (result : Except CodecError α) :
    other.perform (Action.ofCodec result) store = home.perform (Action.ofCodec result) store := rfl

theorem perform_ofStored_eq (stored : Option Bytes) :
    other.perform (Row.ofStored record stored) store =
      home.perform (Row.ofStored record stored) store := by
  cases stored with
  | none => rfl
  | some bytes =>
    change other.perform (some <$> Action.ofCodec (record.unpack bytes)) store =
      home.perform (some <$> Action.ofCodec (record.unpack bytes)) store
    cases record.unpack bytes <;> rfl

variable {view : View record} (bound : view.location = some ⟨home.owner, home.contract, table⟩)
include bound

theorem perform_find_view (packed : Bytes) :
    other.perform (view.find packed) store = home.perform (Row.find record table packed) store := by
  obtain ⟨location⟩ := view
  cases bound
  refine Namespace.perform_bind_congr store
    (perform_queryExternal_eq_query home other store packed) ?_
  intro stored after
  exact perform_ofStored_eq home other after stored

theorem perform_get_view (packed : Bytes) :
    other.perform (view.get packed) store = home.perform (Row.get record table packed) store := by
  have found := perform_find_view home other store bound packed
  obtain ⟨location⟩ := view
  cases bound
  refine Namespace.perform_bind_congr store found ?_
  intro row after
  cases row <;> rfl

theorem perform_find_view_bind {α : Type} (packed : Bytes)
    (next : Option record.Carrier → Action α)
    (later : ∀ row (after : σ),
      other.perform (next row) after = home.perform (next row) after) :
    other.perform (do next (← view.find packed)) store =
      home.perform (do next (← Row.find record table packed)) store :=
  Namespace.perform_bind_congr store (perform_find_view home other store bound packed) later

end Owner

namespace ExternalTable
variable {σ : Type} [Store σ] {home : Namespace} (other : Namespace) (store : σ) {schema : Schema}
  {view : ExternalTable schema} {table : String}
  (bound : view.location = some ⟨home.owner, home.contract, table⟩) {key : schema.Key}
include bound

theorem perform_get_eq (key : schema.Key) :
    other.perform (ExternalTable.get view key) store =
      home.perform (Table.get ⟨table⟩ key) store := by
  unfold ExternalTable.get Table.get Table.packKey
  refine Namespace.perform_bind_congr store (perform_ofCodec_eq home other store _) ?_
  intro packed after
  exact perform_get_view home other after bound packed

theorem perform_getOrDefault_eq (key : schema.Key) (fallback : schema.Record) :
    other.perform (ExternalTable.getOrDefault view key fallback) store =
      home.perform (Table.getOrDefault ⟨table⟩ key fallback) store := by
  unfold ExternalTable.getOrDefault Table.getOrDefault Table.packKey
  refine Namespace.perform_bind_congr store (perform_ofCodec_eq home other store _) ?_
  intro packed after
  exact perform_find_view_bind home other after bound packed
    (fun row => return row.getD fallback) fun _ _ => rfl

/-- The contract asks whether anything is stored; the view asks for the row. -/
theorem perform_has_of_packed {packed : Bytes} (packs : schema.keyType.pack key = .ok packed) :
    home.perform (Table.has ⟨table⟩ key) store =
        home.perform (do let stored ← Action.query table packed; return stored.isSome) store ∧
      other.perform (ExternalTable.has view key) store =
        home.perform (do
          let row ← Row.find schema.type table packed
          return row.isSome) store := by
  have keyed (n : Namespace) :
      n.perform (Table.packKey schema key) store = (.ok packed, store) := by
    unfold Table.packKey
    rw [Namespace.perform_ofCodec, packs]
    rfl
  constructor
  · unfold Table.has
    rw [Namespace.perform_bind, keyed]
  · unfold ExternalTable.has
    rw [Namespace.perform_bind, keyed]
    exact perform_find_view_bind home other store bound packed (fun row => return row.isSome)
      fun _ _ => rfl

theorem perform_has_of_garbled {bytes : Bytes} {cause : CodecError}
    (finds : home.Finds store table key bytes) (garbled : schema.type.unpack bytes = .error cause) :
    home.perform (Table.has ⟨table⟩ key) store = (.ok true, store) ∧
      other.perform (ExternalTable.has view key) store = (.error (.codec cause), store) := by
  obtain ⟨packed, between, first, queried⟩ := Namespace.perform_bind_eq_ok finds
  obtain ⟨packs, rfl⟩ := Namespace.perform_ofCodec_eq_ok first
  obtain ⟨present, shown⟩ := perform_has_of_packed other between bound packs
  rw [present, shown, Row.find, Namespace.perform_bind, Namespace.perform_bind,
    Namespace.perform_bind, queried]
  refine ⟨rfl, ?_⟩
  simp only [Row.ofStored, garbled]
  rfl

theorem perform_has_of_clear
    (clear : ∀ bytes, home.Finds store table key bytes →
      ∃ row, schema.type.unpack bytes = .ok row) :
    other.perform (ExternalTable.has view key) store =
      home.perform (Table.has ⟨table⟩ key) store := by
  cases packs : schema.keyType.pack key with
  | error cause =>
    unfold Table.has ExternalTable.has Table.packKey
    rw [Namespace.perform_bind, Namespace.perform_bind, packs]
    rfl
  | ok packed =>
    obtain ⟨present, shown⟩ := perform_has_of_packed other store bound packs
    rw [present, shown, Row.find, Namespace.perform_bind, Namespace.perform_bind,
      Namespace.perform_bind]
    -- only bytes that are there are unpacked, and these unpack
    have kept : (home.perform (Action.query table packed) store).2 = store := rfl
    cases queried : home.perform (Action.query table packed) store with
    | mk result after =>
      rw [queried] at kept
      subst kept
      cases result with
      | error cause => rfl
      | ok stored =>
        cases stored with
        | none => rfl
        | some bytes =>
          have finds : home.Finds after table key bytes := by
            unfold Namespace.Finds Table.packKey
            rw [Namespace.perform_bind, Namespace.perform_ofCodec, packs]
            exact queried
          obtain ⟨row, unpacked⟩ := clear bytes finds
          simp only [Row.ofStored, unpacked]
          rfl

end ExternalTable

namespace ExternalSingleton
variable {σ : Type} [Store σ] {home : Namespace} (other : Namespace) (store : σ)
  {schema : SingletonSchema} {view : ExternalSingleton schema} {table : String}
  (bound : view.location = some ⟨home.owner, home.contract, table⟩)
include bound

theorem perform_exists_eq :
    other.perform (ExternalSingleton.exists? view) store =
      home.perform (Singleton.exists? (⟨table⟩ : Singleton schema)) store := by
  unfold ExternalSingleton.exists? Singleton.exists? Singleton.packKey
  refine Namespace.perform_bind_congr store (perform_ofCodec_eq home other store _) ?_
  intro packed after
  exact perform_find_view_bind home other after bound packed (fun row => return row.isSome)
    fun _ _ => rfl

theorem perform_get_eq :
    other.perform (ExternalSingleton.get view) store =
      home.perform (Singleton.get (⟨table⟩ : Singleton schema)) store := by
  unfold ExternalSingleton.get Singleton.get Singleton.packKey
  refine Namespace.perform_bind_congr store (perform_ofCodec_eq home other store _) ?_
  intro packed after
  exact perform_get_view home other after bound packed

theorem perform_getOrDefault_eq (fallback : schema.Record) :
    other.perform (ExternalSingleton.getOrDefault view fallback) store =
      home.perform (Singleton.getOrDefault ⟨table⟩ fallback) store := by
  unfold ExternalSingleton.getOrDefault Singleton.getOrDefault Singleton.packKey
  refine Namespace.perform_bind_congr store (perform_ofCodec_eq home other store _) ?_
  intro packed after
  exact perform_find_view_bind home other after bound packed
    (fun row => return row.getD fallback) fun _ _ => rfl

end ExternalSingleton

/-- Bound to a contract's name, a view gives what the contract itself is given, values and errors
alike. Only `has` differs, and only where a row is stored that cannot be unpacked: the contract
finds it present, and the view fails over it. -/
theorem external_view_agrees_except_on_garbled_rows {σ : Type} [Store σ] {contract : Name}
    {limit : Nat} {home : Namespace} (owner : Namespace.ofName contract limit = .ok home)
    (other : Namespace) (store : σ) (table : String) :
    (∀ (schema : Schema) (view : ExternalTable schema), ∃ bound,
      View.bindName view contract table = (.ok (), bound) ∧
        ∀ (key : schema.Key) (fallback : schema.Record),
          other.perform (ExternalTable.get bound key) store =
              home.perform (Table.get ⟨table⟩ key) store ∧
            other.perform (ExternalTable.getOrDefault bound key fallback) store =
              home.perform (Table.getOrDefault ⟨table⟩ key fallback) store ∧
            ((∀ bytes, home.Finds store table key bytes →
                ∃ row, schema.type.unpack bytes = .ok row) →
              other.perform (ExternalTable.has bound key) store =
                home.perform (Table.has ⟨table⟩ key) store) ∧
            ∀ bytes cause, home.Finds store table key bytes →
              schema.type.unpack bytes = .error cause →
                home.perform (Table.has ⟨table⟩ key) store = (.ok true, store) ∧
                  other.perform (ExternalTable.has bound key) store =
                    (.error (.codec cause), store)) ∧
      ∀ (schema : SingletonSchema) (view : ExternalSingleton schema), ∃ bound,
        View.bindName view contract table = (.ok (), bound) ∧
          ∀ fallback : schema.Record,
            other.perform (ExternalSingleton.exists? bound) store =
                home.perform (Singleton.exists? (⟨table⟩ : Singleton schema)) store ∧
              other.perform (ExternalSingleton.get bound) store =
                home.perform (Singleton.get ⟨table⟩) store ∧
              other.perform (ExternalSingleton.getOrDefault bound fallback) store =
                home.perform (Singleton.getOrDefault ⟨table⟩ fallback) store := by
  constructor
  · intro schema view
    obtain ⟨bound, binds, lies⟩ := View.bindName_of_ofName view owner table
    refine ⟨bound, binds, fun key fallback => ⟨?_, ?_, ?_, ?_⟩⟩
    · exact ExternalTable.perform_get_eq other store lies key
    · exact ExternalTable.perform_getOrDefault_eq other store lies key fallback
    · exact ExternalTable.perform_has_of_clear other store lies
    · intro bytes cause finds garbled
      exact ExternalTable.perform_has_of_garbled other store lies finds garbled
  · intro schema view
    obtain ⟨bound, binds, lies⟩ := View.bindName_of_ofName view owner table
    refine ⟨bound, binds, fun fallback => ⟨?_, ?_, ?_⟩⟩
    · exact ExternalSingleton.perform_exists_eq other store lies
    · exact ExternalSingleton.perform_get_eq other store lies
    · exact ExternalSingleton.perform_getOrDefault_eq other store lies fallback

/-- One key with a row that is too short, one key with none. -/
theorem view_fails_over_short_row_and_agrees_beside_it :
    let home : Namespace := ⟨"o", "c", 100⟩
    let other : Namespace := ⟨"bob", "game", 100⟩
    let table : Table Token.balanceSchema := ⟨"t"⟩
    let store : MemoryStore := SortedMap.empty.insert [1, 1, 111, 1, 99, 1, 116, 1, 120] [0]
    Namespace.ofName ⟨"$c@o"⟩ 100 = .ok home ∧
      ∃ bound : ExternalTable Token.balanceSchema,
        View.bindName View.unbound ⟨"$c@o"⟩ "t" = (.ok (), bound) ∧
          home.perform (table.has ⟨"x"⟩) store = (.ok true, store) ∧
            other.perform (ExternalTable.has bound ⟨"x"⟩) store =
                (.error (.codec (.schemaMismatch "balances" 2 0)), store) ∧
              other.perform (ExternalTable.has bound ⟨"y"⟩) store =
                home.perform (table.has ⟨"y"⟩) store := by
  intro home other table store
  have owner : Namespace.ofName ⟨"$c@o"⟩ 100 = .ok home := by rfl
  obtain ⟨bound, binds, reads⟩ :=
    (external_view_agrees_except_on_garbled_rows owner other store "t").1 Token.balanceSchema
      View.unbound
  obtain ⟨-, -, -, garbled⟩ := reads ⟨"x"⟩ (⟨"x"⟩, 0#64, ())
  obtain ⟨-, -, clear, -⟩ := reads ⟨"y"⟩ (⟨"y"⟩, 0#64, ())
  obtain ⟨present, hidden⟩ := garbled [0] (.schemaMismatch "balances" 2 0) (by rfl) (by rfl)
  have free : home.perform (do Action.query "t" (← Table.packKey Token.balanceSchema ⟨"y"⟩)) store =
      (.ok none, store) := by rfl
  refine ⟨owner, bound, binds, present, hidden, clear ?_⟩
  intro bytes finds
  unfold Namespace.Finds at finds
  rw [free] at finds
  cases finds

theorem contract_has_row_that_view_has_not :
    let home : Namespace := ⟨"o", "c", 100⟩
    let other : Namespace := ⟨"bob", "game", 100⟩
    let table : Table Token.balanceSchema := ⟨"t"⟩
    let store : MemoryStore := SortedMap.empty.insert [1, 1, 111, 1, 99, 1, 116, 1, 120] [0]
    let view : ExternalTable Token.balanceSchema := View.unbound
    let bound := (View.bindName view ⟨"$c@o"⟩ "t").2
    (home.perform (table.has ⟨"x"⟩) store).1.toOption = some true ∧
      (other.perform (ExternalTable.has bound ⟨"x"⟩) store).1.toOption = none := by
  decide +kernel

/-! Bound by the parts of a location. -/

namespace View
variable {record : WireType}

/-- What binding by parts comes to. Only a part of a contract has its at sign read as a border. -/
inductive BindOutcome (view : View record) (owner contract table : String) :
    Except StateError Unit × View record → Prop where
  | ownerless (plain : '@' ∉ contract.toList) (missing : owner = "") :
    BindOutcome view owner contract table
      (.error (.notAContract (Name.contractOf owner contract).text), view)
  | named (plain : '@' ∉ contract.toList) (owned : owner ≠ "") :
    BindOutcome view owner contract table (.ok (), ⟨some ⟨owner, contract, table⟩⟩)
  | moved (front back : String) (plain : '@' ∉ front.toList)
      (split : contract = front ++ "@" ++ back) :
    BindOutcome view owner contract table (.ok (), ⟨some ⟨back ++ "@" ++ owner, front, table⟩⟩)

variable (view : View record) {owner contract : String}

theorem bind_of_named (plain : '@' ∉ contract.toList) (owned : owner ≠ "") (table : String) :
    view.bind owner contract table = (.ok (), ⟨some ⟨owner, contract, table⟩⟩) := by
  have parts := Name.parts_contractOf owner plain
  rw [if_neg owned] at parts
  have is : (Name.contractOf owner contract).isContract = true := by
    simp [Name.isContract, parts]
  refine (view.bindName_of_contract is table).trans ?_
  simp [Name.account, Name.contract, parts]

theorem bind_of_ownerless (plain : '@' ∉ contract.toList) (missing : owner = "") (table : String) :
    view.bind owner contract table =
      (.error (.notAContract (Name.contractOf owner contract).text), view) := by
  have parts := Name.parts_contractOf owner plain
  rw [if_pos missing] at parts
  refine view.bindName_of_account ?_ table
  simp [Name.isContract, parts]

theorem bind_at (owner front back table : String) :
    view.bind owner (front ++ "@" ++ back) table =
      view.bind (back ++ "@" ++ owner) front table := by
  unfold bind Location.ofParts
  rw [Name.contractOf_at]

theorem bind_outcome (owner contract table : String) :
    BindOutcome view owner contract table (view.bind owner contract table) := by
  by_cases mem : '@' ∈ contract.toList
  · -- what is before the first at sign stays, what is behind it moves to the owner
    obtain ⟨before, after, split, plain⟩ := List.eq_append_cons_of_mem mem
    have parts : contract = String.ofList before ++ "@" ++ String.ofList after := by
      rw [← String.toList_inj, split]
      simp
    have front : '@' ∉ (String.ofList before).toList := by
      rwa [String.toList_ofList]
    have owned : String.ofList after ++ "@" ++ owner ≠ "" := by simp
    rw [parts, bind_at, view.bind_of_named front owned]
    exact .moved _ _ front rfl
  · by_cases missing : owner = ""
    · rw [view.bind_of_ownerless mem missing]
      exact .ownerless mem missing
    · rw [view.bind_of_named mem missing]
      exact .named mem missing

theorem bind_succeeds_iff (owner contract table : String) :
    (view.bind owner contract table).1 = .ok () ↔ owner ≠ "" ∨ '@' ∈ contract.toList := by
  have outcome := view.bind_outcome owner contract table
  generalize view.bind owner contract table = done at outcome
  cases outcome with
  | ownerless plain missing => simp [plain, missing]
  | named plain owned => simp [owned]
  | moved front back plain split => simp [split]

theorem eq_of_bind_error {owner contract table : String} {cause : StateError}
    (failed : (view.bind owner contract table).1 = .error cause) :
    (view.bind owner contract table).2 = view := by
  have outcome := view.bind_outcome owner contract table
  generalize view.bind owner contract table = done at outcome failed
  cases outcome with
  | ownerless plain missing => rfl
  | named plain owned => cases failed
  | moved front back plain split => cases failed

theorem location_of_bind {owner contract table : String} (plain : '@' ∉ contract.toList)
    (succeeded : (view.bind owner contract table).1 = .ok ()) :
    (view.bind owner contract table).2.location = some ⟨owner, contract, table⟩ := by
  have outcome := view.bind_outcome owner contract table
  generalize view.bind owner contract table = done at outcome succeeded
  cases outcome with
  | ownerless plain missing => cases succeeded
  | named plain owned => rfl
  | moved front back _ split =>
    subst split
    simp at plain

theorem location_of_bind_at (owner : String) {front : String} (plain : '@' ∉ front.toList)
    (back table : String) :
    (view.bind owner (front ++ "@" ++ back) table).2.location =
      some ⟨back ++ "@" ++ owner, front, table⟩ := by
  rw [bind_at, view.bind_of_named plain (by simp)]

end View

namespace ExternalTable
variable {schema : Schema}

/-- Binding by parts fails only without an owner and without an at sign, and then changes nothing.
Where the contract's part has no at sign, the view reads the table of exactly that contract, and no
other such parts lead to it; what is behind the first at sign goes to the owner's part. -/
theorem bind_reaches_named_contract_up_to_at_sign (view other : ExternalTable schema)
    (owner contract table owner' contract' table' : String) :
    let done := View.bind view owner contract table
    let done' := View.bind other owner' contract' table'
    (done.1 = .ok () ↔ owner ≠ "" ∨ '@' ∈ contract.toList) ∧
      (∀ cause, done.1 = .error cause → done.2 = view) ∧
      ('@' ∉ contract.toList → done.1 = .ok () → ReadsFrom done.2 owner contract table) ∧
      (∀ front back, '@' ∉ front.toList → contract = front ++ "@" ++ back →
        ReadsFrom done.2 (back ++ "@" ++ owner) front table) ∧
      ('@' ∉ contract.toList → '@' ∉ contract'.toList → done.1 = .ok () → done'.1 = .ok () →
        done.2.location = done'.2.location →
          owner = owner' ∧ contract = contract' ∧ table = table') := by
  refine ⟨View.bind_succeeds_iff view owner contract table, ?_, ?_, ?_, ?_⟩
  · intro cause failed
    exact View.eq_of_bind_error view failed
  · intro plain succeeded
    exact readsFrom_of_location (View.location_of_bind view plain succeeded)
  · rintro front back plain rfl
    exact readsFrom_of_location (View.location_of_bind_at view owner plain back table)
  · intro plain plain' succeeded succeeded' same
    rw [View.location_of_bind view plain succeeded,
      View.location_of_bind other plain' succeeded'] at same
    cases same
    exact ⟨rfl, rfl, rfl⟩

/-- Two ways to write one owner and one contract. -/
theorem at_sign_moves_from_contract_to_owner :
    let view : ExternalTable Token.balanceSchema := View.unbound
    '@' ∉ "token".toList ∧ (View.bind view "is@suer" "token" "t").1 = .ok () ∧
      ReadsFrom (View.bind view "is@suer" "token" "t").2 "is@suer" "token" "t" ∧
        ReadsFrom (View.bind view "suer" "token@is" "t").2 "is@suer" "token" "t" := by
  intro view
  have plain : '@' ∉ "token".toList := by decide
  have first := bind_reaches_named_contract_up_to_at_sign view view
    "is@suer" "token" "t" "is@suer" "token" "t"
  have second := bind_reaches_named_contract_up_to_at_sign view view
    "suer" "token@is" "t" "suer" "token@is" "t"
  have succeeded := first.1.2 (.inl (by decide))
  refine ⟨plain, succeeded, first.2.2.1 plain succeeded, ?_⟩
  exact second.2.2.2.1 "token" "is" plain (by decide)

/-- An empty owner is accepted, two pairs of parts lead to one location, and a view of the one pair
shows a row where an external query of it finds none. -/
theorem parts_with_at_sign_reach_another_contract :
    let view : ExternalTable Token.balanceSchema := View.unbound
    let bound := (View.bind view "bob" "a@b" "t").2
    let reader : Namespace := ⟨"zoe", "game", 100⟩
    let store : MemoryStore := SortedMap.empty.insert
      [1, 5, 98, 64, 98, 111, 98, 1, 97, 1, 116, 1, 120] [2, 1, 120, 7, 0, 0, 0, 0, 0, 0, 0]
    (View.bind view "" "a@b" "t").1.toOption = some () ∧
      bound.location = (View.bind view "b@bob" "a" "t").2.location ∧
        (reader.perform (ExternalTable.has bound ⟨"x"⟩) store).1.toOption = some true ∧
          (reader.perform (Action.queryExternal "bob" "a@b" "t" [1, 120]) store).1.toOption =
            some none := by
  decide +kernel

end ExternalTable
end ContractStore

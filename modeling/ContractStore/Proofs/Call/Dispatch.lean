import ContractStore.Call.Contract

/-!
What a call is, as a program: the method that it names, handed the arguments, or a failure before
anything runs.
-/
namespace ContractStore

theorem find?_of_distinct {α : Type} (name : α → String) {xs : List α} {x : α}
    (distinct : (xs.map name).Nodup) (mem : x ∈ xs) :
    xs.find? (fun y => name y == name x) = some x := by
  induction xs with
  | nil => cases mem
  | cons y rest ih =>
    obtain ⟨fresh, distinct⟩ := List.nodup_cons.1 distinct
    cases List.mem_cons.1 mem with
    | inl same =>
      rw [same]
      exact List.find?_cons_of_pos (beq_self_eq_true _)
    | inr later =>
      have ne : name y ≠ name x := fun same => fresh (same ▸ List.mem_map_of_mem later)
      rw [List.find?_cons_of_neg (by simpa using ne)]
      exact ih distinct later

namespace Contract
variable {c : Contract} {ctx : CallContext} {m : Method}

theorem dispatch_of_unlisted (unlisted : ctx.method ∉ c.methodNames) :
    c.dispatch ctx = throw (.unknownMethod ctx.method) := by
  have missing : (c.methods.find? fun m => m.name == ctx.method) = none := by
    rw [List.find?_eq_none]
    intro m mem same
    exact unlisted (List.mem_map.2 ⟨m, mem, eq_of_beq same⟩)
  unfold dispatch
  rw [missing]

theorem dispatch_of_unpacked {args : m.params.Carrier}
    (named : (c.methods.find? fun m => m.name == ctx.method) = some m)
    (unpacked : (WireType.tuple m.params).unpack ctx.args = .ok args) :
    c.dispatch ctx = m.body args ctx := by
  unfold dispatch
  rw [named]
  dsimp only
  rw [unpacked]
  rfl

theorem dispatch_of_garbled {cause : CodecError}
    (named : (c.methods.find? fun m => m.name == ctx.method) = some m)
    (garbled : (WireType.tuple m.params).unpack ctx.args = .error cause) :
    c.dispatch ctx = throw (.codec cause) := by
  unfold dispatch
  rw [named]
  dsimp only
  rw [garbled]
  rfl

theorem find?_method (distinct : c.methodNames.Nodup) (mem : m ∈ c.methods)
    (named : m.name = ctx.method) : (c.methods.find? fun m => m.name == ctx.method) = some m :=
  named ▸ find?_of_distinct Method.name distinct mem

end Contract
end ContractStore

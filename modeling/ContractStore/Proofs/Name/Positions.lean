import ContractStore.Proofs.Name

/-!
Names by position. The first at sign of a text that begins with a dollar sign can be looked for as a
byte position, and the parts cut out of the text at that position. Cutting fails at a position
inside a character; here it never does, and the parts are those of `Name.parts?`. So the names of
contracts are exactly the texts of one form, and each is printed back from its parts.
-/
namespace ContractStore

/-- The text between two byte positions, if both lie between characters and the second is not in
front of the first. -/
def between? (s : String) (first last : Nat) : Option String := do
  let left ← s.pos? ⟨first⟩
  let right ← s.pos? ⟨last⟩
  (s.slice? left right).map String.Slice.copy

theorem pos?_of_splits {s : String} {p : s.Pos} {front back : String} (h : p.Splits front back) :
    s.pos? ⟨front.utf8ByteSize⟩ = some p := by
  have valid := p.isValid
  rw [h.offset_eq_rawEndPos] at valid
  have inside : (String.Pos.Raw.mk front.utf8ByteSize).isValidForSlice s.toSlice = true :=
    String.Pos.Raw.isValidForSlice_eq_true_iff.2 valid.toSlice
  simp only [String.pos?, String.Slice.pos?, inside, ↓reduceDIte, Option.map_some,
    Option.some.injEq, String.Pos.ext_iff, h.offset_eq_rawEndPos]
  rfl

theorem between?_append (front middle back : String) :
    between? (front ++ middle ++ back) front.utf8ByteSize
      (front.utf8ByteSize + middle.utf8ByteSize) = some middle := by
  have whole : front ++ middle ++ back = front ++ (middle ++ back) := String.append_assoc
  have left := String.Pos.splits_ofEqAppend whole
  have right := String.Pos.splits_ofEqAppend (Eq.refl (front ++ middle ++ back))
  obtain ⟨ordered, copied⟩ := String.copy_slice_eq_iff_splits.2 ⟨front, back, left, right⟩
  unfold between?
  rw [← String.utf8ByteSize_append, pos?_of_splits left, pos?_of_splits right]
  simp [String.slice?, ordered, copied]

namespace Name

def atSign? (n : Name) : Option Nat :=
  if 1 < n.text.utf8ByteSize ∧ n.text.startsWith '$' then
    (n.text.find? '@').map fun found => found.offset.byteIdx
  else none

def isContractByPosition (n : Name) : Bool :=
  match n.atSign? with
  | some split => split + 1 < n.text.utf8ByteSize
  | none => false

def accountByPosition (n : Name) : String :=
  match n.atSign? with
  | some split =>
    if n.isContractByPosition then (between? n.text (split + 1) n.text.utf8ByteSize).getD ""
    else n.text
  | none => n.text

def contractByPosition (n : Name) : String :=
  match n.atSign? with
  | some split => if n.isContractByPosition then (between? n.text 1 split).getD "" else ""
  | none => ""

variable {n : Name} {contract owner : String}

theorem atSign?_of_text (text : n.text = "$" ++ contract ++ "@" ++ owner)
    (plain : '@' ∉ contract.toList) : n.atSign? = some (contract.utf8ByteSize + 1) := by
  have begins : n.text = String.singleton '$' ++ (contract ++ "@" ++ owner) := by
    rw [text, String.append_assoc, String.append_assoc, String.append_assoc]
    rfl
  have starts : n.text.startsWith '$' = true :=
    String.startsWith_char_iff_exists_append.2 ⟨_, begins⟩
  have long : 1 < n.text.utf8ByteSize := by
    rw [text]
    simp only [String.utf8ByteSize_append]
    have one : "$".utf8ByteSize = 1 := by decide
    have one' : "@".utf8ByteSize = 1 := by decide
    omega
  have whole : n.text = "$" ++ contract ++ (String.singleton '@' ++ owner) := by
    rw [text, String.append_assoc]
    rfl
  have splits := String.Pos.splits_ofEqAppend whole
  have first : '@' ∉ ("$" ++ contract).toList := by
    rw [String.toList_append, List.mem_append, not_or]
    exact ⟨by decide, plain⟩
  have found := String.find?_char_eq_some_iff_splits.2 ⟨_, _, splits, first⟩
  unfold atSign?
  rw [if_pos ⟨long, starts⟩, found, Option.map_some, splits.offset_eq_rawEndPos]
  simp only [String.byteIdx_rawEndPos, String.utf8ByteSize_append, Option.some.injEq]
  exact Nat.add_comm 1 _

theorem text_of_atSign? {split : Nat} (found : n.atSign? = some split) :
    ∃ contract owner, n.text = "$" ++ contract ++ "@" ++ owner ∧ '@' ∉ contract.toList := by
  unfold atSign? at found
  split at found
  · rename_i starts
    obtain ⟨position, first, _⟩ := Option.map_eq_some_iff.1 found
    obtain ⟨front, owner, splits, plain⟩ := String.find?_char_eq_some_iff_splits.1 first
    obtain ⟨rest, begins⟩ := String.startsWith_char_iff_exists_append.1 starts.2
    have whole : front.toList ++ '@' :: owner.toList = '$' :: rest.toList := by
      have same := congrArg String.toList (splits.eq_append.symm.trans begins)
      simpa using same
    cases chars : front.toList with
    | nil =>
      rw [chars] at whole
      cases whole
    | cons mark contract =>
      rw [chars] at whole plain
      obtain ⟨rfl, _⟩ := List.cons.inj whole
      refine ⟨String.ofList contract, owner, ?_, ?_⟩
      · rw [splits.eq_append, ← String.toList_inj]
        simp [chars]
      · rw [String.toList_ofList]
        exact fun mem => plain (List.mem_cons_of_mem _ mem)
  · cases found

theorem parts_of_split {chars front back : List Char} (h : split chars = some (front, back)) :
    '@' ∉ front ∧ back ≠ [] := by
  unfold split at h
  split at h
  · split at h
    · cases h
      refine ⟨fun mem => ?_, List.cons_ne_nil _ _⟩
      have kept := List.all_eq_true.1 List.all_takeWhile _ mem
      simp at kept
    · cases h
  · cases h

theorem parts_eq_some_iff : n.parts? = some (contract, owner) ↔
    n.text = "$" ++ contract ++ "@" ++ owner ∧ '@' ∉ contract.toList ∧ owner ≠ "" := by
  constructor
  · intro parts
    obtain ⟨⟨front, back⟩, found, pair⟩ := Option.map_eq_some_iff.1 parts
    obtain ⟨plain, some⟩ := parts_of_split found
    cases pair
    refine ⟨text_of_parts parts, ?_, ?_⟩
    · rw [String.toList_ofList]
      exact plain
    · simpa using some
  · rintro ⟨text, plain, some⟩
    have printed : n = contractOf owner contract := congrArg Name.mk text
    rw [printed, parts_contractOf owner plain, if_neg some]

theorem cut_of_parts (parts : n.parts? = some (contract, owner)) :
    n.atSign? = some (contract.utf8ByteSize + 1) ∧
      between? n.text 1 (contract.utf8ByteSize + 1) = some contract ∧
      between? n.text (contract.utf8ByteSize + 1 + 1) n.text.utf8ByteSize = some owner := by
  obtain ⟨text, plain, _⟩ := parts_eq_some_iff.1 parts
  refine ⟨atSign?_of_text text plain, ?_, ?_⟩
  · have cut := between?_append "$" contract ("@" ++ owner)
    rw [← String.append_assoc, ← text, Nat.add_comm] at cut
    exact cut
  · have cut := between?_append ("$" ++ contract ++ "@") owner ""
    rw [String.append_empty, ← text, ← String.utf8ByteSize_append, ← text,
      String.utf8ByteSize_append, String.utf8ByteSize_append] at cut
    rw [Nat.add_comm contract.utf8ByteSize 1]
    exact cut

theorem isContractByPosition_eq (n : Name) : n.isContractByPosition = n.isContract := by
  unfold isContractByPosition isContract
  cases found : n.atSign? with
  | none =>
    cases parts : n.parts? with
    | none => rfl
    | some both => cases found.symm.trans (cut_of_parts parts).1
  | some split =>
    obtain ⟨contract, owner, text, plain⟩ := text_of_atSign? found
    have printed : n = contractOf owner contract := congrArg Name.mk text
    cases found.symm.trans (atSign?_of_text text plain)
    have size : n.text.utf8ByteSize = 1 + contract.utf8ByteSize + 1 + owner.utf8ByteSize := by
      rw [text]
      simp only [String.utf8ByteSize_append]
      rfl
    rw [printed, parts_contractOf owner plain, ← printed, size]
    have empty : owner.utf8ByteSize = 0 ↔ owner = "" := String.utf8ByteSize_eq_zero_iff
    by_cases missing : owner = ""
    · have nothing := empty.2 missing
      rw [if_pos missing]
      exact decide_eq_false (by omega)
    · have something : owner.utf8ByteSize ≠ 0 := fun zero => missing (empty.1 zero)
      rw [if_neg missing]
      exact decide_eq_true (by omega)

theorem accountByPosition_eq (n : Name) : n.accountByPosition = n.account := by
  unfold accountByPosition account
  rw [n.isContractByPosition_eq, isContract]
  cases parts : n.parts? with
  | none => cases n.atSign? <;> rfl
  | some both =>
    obtain ⟨found, _, cut⟩ := cut_of_parts parts
    rw [found]
    simp [cut]

theorem contractByPosition_eq (n : Name) : n.contractByPosition = n.contract := by
  unfold contractByPosition Name.contract
  rw [n.isContractByPosition_eq, isContract]
  cases parts : n.parts? with
  | none => cases n.atSign? <;> rfl
  | some both =>
    obtain ⟨found, cut, _⟩ := cut_of_parts parts
    rw [found]
    simp [cut]

/-- A text names a contract exactly if it has the form of such a name, which is then printed back
from its two parts; any other text is the name of an account. Looking for the parts by position
finds the same, and never cuts where there is nothing to cut. -/
theorem contract_names_parse_and_print_back (s : String) :
    let n : Name := ⟨s⟩
    (n.isContract = true ↔ ∃ contract owner,
        s = "$" ++ contract ++ "@" ++ owner ∧ '@' ∉ contract.toList ∧ owner ≠ "") ∧
      (∀ contract owner, s = "$" ++ contract ++ "@" ++ owner → '@' ∉ contract.toList →
        owner ≠ "" →
          n.contract = contract ∧ n.account = owner ∧ contractOf n.account n.contract = n) ∧
      (n.isContract = false → n.contract = "" ∧ n.account = s) ∧
      (∀ m : Name, n.isContract = true → m.isContract = true → n ≠ m →
        (n.account, n.contract) ≠ (m.account, m.contract)) ∧
      n.isContractByPosition = n.isContract ∧ n.accountByPosition = n.account ∧
      n.contractByPosition = n.contract ∧
      (n.isContract = true → ∃ split, n.atSign? = some split ∧
        between? s 1 split = some n.contract ∧
          between? s (split + 1) s.utf8ByteSize = some n.account) := by
  intro n
  have isContract_iff : n.isContract = true ↔ ∃ contract owner,
      s = "$" ++ contract ++ "@" ++ owner ∧ '@' ∉ contract.toList ∧ owner ≠ "" := by
    unfold isContract
    rw [Option.isSome_iff_exists]
    constructor
    · rintro ⟨⟨contract, owner⟩, parts⟩
      exact ⟨contract, owner, parts_eq_some_iff.1 parts⟩
    · rintro ⟨contract, owner, form⟩
      exact ⟨(contract, owner), parts_eq_some_iff.2 form⟩
  refine ⟨isContract_iff, ?_, ?_, ?_, n.isContractByPosition_eq, n.accountByPosition_eq,
    n.contractByPosition_eq, ?_⟩
  · intro contract owner text plain some
    have parts : n.parts? = Option.some (contract, owner) :=
      parts_eq_some_iff.2 ⟨text, plain, some⟩
    have name : n.contract = contract := by simp [Name.contract, parts]
    have account : n.account = owner := by simp [Name.account, parts]
    refine ⟨name, account, ?_⟩
    rw [name, account]
    exact congrArg Name.mk text.symm
  · intro plain
    have none : n.parts? = none := by simpa [isContract] using plain
    exact ⟨by simp [Name.contract, none], by simp [Name.account, none, n]⟩
  · intro m first second differ same
    exact differ (eq_of_parts first second (congrArg Prod.fst same) (congrArg Prod.snd same))
  · intro named
    obtain ⟨⟨contract, owner⟩, parts⟩ := Option.isSome_iff_exists.1 named
    obtain ⟨found, front, back⟩ := cut_of_parts parts
    have name : n.contract = contract := by simp [Name.contract, parts]
    have account : n.account = owner := by simp [Name.account, parts]
    rw [name, account]
    exact ⟨_, found, front, back⟩

/-- The first at sign counts, and characters of more than one byte stand on both sides of it. -/
theorem name_is_cut_at_first_at_sign :
    let n : Name := ⟨"$é@ä@b"⟩
    n.isContract = true ∧ n.contract = "é" ∧ n.account = "ä@b" ∧
      contractOf n.account n.contract = n ∧ n.atSign? = some 3 := by
  intro n
  have form : "$é@ä@b" = "$" ++ "é" ++ "@" ++ "ä@b" := rfl
  obtain ⟨named, parts, _⟩ := contract_names_parse_and_print_back "$é@ä@b"
  obtain ⟨contract, account, printed⟩ := parts "é" "ä@b" form (by decide) (by decide)
  refine ⟨named.2 ⟨"é", "ä@b", form, by decide, by decide⟩, contract, account, printed, ?_⟩
  exact atSign?_of_text form (by decide)

end Name
end ContractStore

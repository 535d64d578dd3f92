import ContractStore.Bytes
import ContractStore.Name

/-!
The form of contract names. A name is determined by the contract and the owner that it names
(`eq_of_parts`), and neither part is longer than it.
-/
namespace ContractStore.Name

theorem eq_of_split {chars contract owner : List Char} (h : split chars = some (contract, owner)) :
    chars = '$' :: (contract ++ '@' :: owner) := by
  unfold split at h
  split at h
  · rename_i rest
    split at h
    · rename_i first more behind
      have whole := rest.takeWhile_append_dropWhile (p := (· != '@'))
      rw [behind] at whole
      cases h
      rw [whole]
    · cases h
  · cases h

theorem text_of_parts {n : Name} {contract owner : String} (h : n.parts? = some (contract, owner)) :
    n.text = "$" ++ contract ++ "@" ++ owner := by
  obtain ⟨⟨left, right⟩, found, pair⟩ := Option.map_eq_some_iff.1 h
  cases pair
  rw [← String.toList_inj]
  simp [eq_of_split found]

theorem eq_of_parts {n m : Name} (contract : n.isContract = true) (contract' : m.isContract = true)
    (owners : n.account = m.account) (names : n.contract = m.contract) : n = m := by
  obtain ⟨⟨left, right⟩, parts⟩ := Option.isSome_iff_exists.1 contract
  obtain ⟨⟨left', right'⟩, parts'⟩ := Option.isSome_iff_exists.1 contract'
  have owner : right = right' := by simpa [account, parts, parts'] using owners
  have name : left = left' := by simpa [Name.contract, parts, parts'] using names
  subst owner name
  cases n
  cases m
  exact congrArg Name.mk ((text_of_parts parts).trans (text_of_parts parts').symm)

theorem split_of_parts {contract owner : List Char} (plain : '@' ∉ contract) :
    split ('$' :: (contract ++ '@' :: owner)) =
      if owner = [] then none else some (contract, owner) := by
  have front (c : Char) (mem : c ∈ contract) : (c != '@') = true := by
    simp only [bne_iff_ne, ne_eq]
    rintro rfl
    exact plain mem
  have kept : (contract ++ '@' :: owner).takeWhile (· != '@') = contract := by
    rw [List.takeWhile_append_of_pos front]
    simp
  have left : (contract ++ '@' :: owner).dropWhile (· != '@') = '@' :: owner := by
    rw [List.dropWhile_append_of_pos front]
    simp
  unfold split
  simp only [left, kept]
  cases owner <;> rfl

/-- Without an at sign in the contract's name, the parts that a name is made of can be read off it,
unless the owner is missing. -/
theorem parts_contractOf (owner : String) {contract : String} (plain : '@' ∉ contract.toList) :
    (contractOf owner contract).parts? = if owner = "" then none else some (contract, owner) := by
  have text : (contractOf owner contract).text.toList =
      '$' :: (contract.toList ++ '@' :: owner.toList) := by
    simp [contractOf]
  unfold parts?
  rw [text, split_of_parts plain]
  by_cases missing : owner = ""
  · simp [missing]
  · simp [missing]

/-- An at sign in the contract's name ends it; what is behind goes to the owner. -/
theorem contractOf_at (owner front back : String) :
    contractOf owner (front ++ "@" ++ back) = contractOf (back ++ "@" ++ owner) front := by
  simp only [contractOf, String.append_assoc]

theorem length_of_parts {n : Name} {contract owner : String}
    (parts : n.parts? = some (contract, owner)) :
    (Bytes.ofString contract).length + (Bytes.ofString owner).length ≤
      (Bytes.ofString n.text).length := by
  rw [text_of_parts parts]
  simp only [Bytes.ofString, String.toByteArray_append, ByteArray.data_append,
    Array.toList_append, List.length_append]
  omega

theorem length_account_le (n : Name) :
    (Bytes.ofString n.account).length ≤ (Bytes.ofString n.text).length := by
  unfold account
  cases parts : n.parts? with
  | none => exact Nat.le_refl _
  | some names => exact Nat.le_trans (Nat.le_add_left _ _) (length_of_parts parts)

theorem length_contract_le (n : Name) :
    (Bytes.ofString n.contract).length ≤ (Bytes.ofString n.text).length := by
  unfold Name.contract
  cases parts : n.parts? with
  | none => exact Nat.zero_le _
  | some names => exact Nat.le_trans (Nat.le_add_right _ _) (length_of_parts parts)

end ContractStore.Name

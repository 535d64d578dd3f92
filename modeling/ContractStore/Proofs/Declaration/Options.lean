import ContractStore.Declaration.Attribute
import ContractStore.Declaration.Error
import ContractStore.Proofs.Except

/-!
The options of a declaration as a whole, of which each has to name what is declared. The last name
counts, and the first option that is no name is refused.
-/
namespace ContractStore

section
variable {ω : Type} {nameOf : ω → Except DeclarationError String} {named : ω → Prop}
  {refused : ω → DeclarationError → Prop}

def lastName (nameOf : ω → Except DeclarationError String) (options : List ω) (start : String) :
    Except DeclarationError String :=
  (options.mapM nameOf).map fun names => names.getLastD start

theorem settles_lastName (each : ∀ option, Settles (nameOf option) (named option) (refused option))
    (options : List ω) (start : String) :
    Settles (lastName nameOf options start) (∀ option ∈ options, named option) fun cause =>
      ∃ before option after, options = before ++ option :: after ∧
        (∀ o ∈ before, named o) ∧ refused option cause :=
  (Settles.mapM each options).map _

end

namespace AttributeOption

def NamesIt (option : AttributeOption) : Prop := ∃ value, option = .text "name" value

def nameOr (refuse : AttributeOption → DeclarationError) :
    AttributeOption → Except DeclarationError String
  | .text "name" value => .ok value
  | option => .error (refuse option)

theorem settles_nameOr (refuse : AttributeOption → DeclarationError) (option : AttributeOption) :
    Settles (nameOr refuse option) option.NamesIt fun cause =>
      ¬ option.NamesIt ∧ cause = refuse option := by
  have other (violated : ¬ option.NamesIt) : nameOr refuse option = .error (refuse option) := by
    unfold nameOr
    split
    · exact absurd ⟨_, rfl⟩ violated
    · rfl
  constructor
  · by_cases names : option.NamesIt
    · exact .inl names
    · exact .inr ⟨_, names, rfl⟩
  · rintro ⟨value, rfl⟩
    exact ⟨value, rfl⟩
  · rintro cause ⟨violated, rfl⟩
    exact other violated

end AttributeOption
end ContractStore

import ContractStore.Text.Unprintable

/-!
Texts in double quotes, as they stand in diagnostics: quotes, backslashes and everything that cannot
be seen is escaped.
-/
namespace ContractStore.Text

def hexDigits (n : Nat) : String := String.ofList (Nat.toDigits 16 n)

def quoteChar (c : Char) : String :=
  match c with
  | '"' => "\\\""
  | '\\' => "\\\\"
  | '\n' => "\\n"
  | '\r' => "\\r"
  | '\t' => "\\t"
  | '\x00' => "\\0"
  | c => if isUnprintable c then "\\u\x7b" ++ hexDigits c.toNat ++ "\x7d" else c.toString

def quote (s : String) : String := "\"" ++ String.join (s.toList.map quoteChar) ++ "\""

def structText (name : String) (fields : List (String × String)) (ending : List String) : String :=
  let shown := fields.map (fun (field, value) => field ++ ": " ++ value) ++ ending
  name ++ " \x7b " ++ String.intercalate ", " shown ++ " \x7d"

end ContractStore.Text

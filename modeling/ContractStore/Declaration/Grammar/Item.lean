import ContractStore.Declaration.Grammar.Signature

/-!
Items: functions, types, interfaces and their implementations, modules, constants and macros. Some
forms have no meaning of their own yet; an item of such a form is shown as it is.
-/
namespace ContractStore.Grammar
open Reading Token

def isRestriction : List Token → Bool
  | [.word w] => ["crate", "self", "super"].contains w
  | .word "in" :: _ => true
  | _ => false

def visibility : Reading Bool := do
  let isVisible ← word? "pub"
  match ← ahead with
  | .group .round inner :: _ => if isVisible && isRestriction inner then token
  | _ => pure ()
  return isVisible

def upToSemicolon : Reading Unit := do
  whileAhead (fun tokens => !starts ";" tokens) token
  mark ";"

def macroCall : Reading Unit := do
  whileAhead (fun tokens => !starts "!" tokens) token
  mark "!"
  if startsName (← ahead) || startsWord ["try"] (← ahead) then token
  let isClosed := startsGroup .curly (← ahead)
  token
  if !isClosed then mark ";"

def function (g : Grammar) : Reading Bool := do
  discard g.signature
  if startsGroup .curly (← ahead) then
    g.block
    return true
  else
    mark ";"
    return false

def constantItem (g : Grammar) : Reading (Bool × Bool) := do
  word "const"
  token
  let isGeneric := starts "<" (← ahead)
  g.generics
  mark ":"
  g.type true
  let isValued ← mark? "="
  if isValued then g.expression true
  let isConditional := startsWord ["where"] (← ahead)
  g.whereClause
  mark ";"
  return (!isGeneric && !isConditional, isValued)

def staticItem (g : Grammar) : Reading (Bool × Bool) := do
  word "static"
  discard (word? "mut")
  token
  let isTyped ← mark? ":"
  if isTyped then g.type true
  let isValued ← mark? "="
  if isValued then g.expression true
  mark ";"
  return (isTyped, isValued)

def typeItem (g : Grammar) : Reading (Bool × Bool) := do
  word "type"
  token
  g.generics
  let isBounded := starts ":" (← ahead)
  g.colonBounds fun tokens =>
    startsWord ["where"] tokens || starts "=" tokens || starts ";" tokens
  g.whereClause
  let isValued ← mark? "="
  if isValued then g.type true
  g.whereClause
  mark ";"
  return (isBounded, isValued)

/-- Fields with names. In place of a type, fields without a name may have fields of their own, which
are shown as they are. -/
def namedFields (g : Grammar) : Reading Unit := within .curly <| commas do
  g.outerAttributes
  discard visibility
  token
  mark ":"
  let tokens ← ahead
  if startsWord ["struct", "union"] tokens && startsGroup .curly (tokens.drop 1) then
    token
    token
  else g.type true

def plainFields (g : Grammar) : Reading Unit := within .round <| commas do
  g.outerAttributes
  discard visibility
  g.type true

def fieldsItem (g : Grammar) : Reading Unit := do
  token
  token
  g.generics
  g.whereClause
  if startsGroup .curly (← ahead) then g.namedFields
  else
    if startsGroup .round (← ahead) then g.plainFields
    g.whereClause
    mark ";"

/-- A variant. Where it is visible is not shown. -/
def variant (g : Grammar) : Reading Unit := do
  g.outerAttributes
  discard (heldBack (discard visibility))
  token
  if startsGroup .curly (← ahead) then g.namedFields
  else if startsGroup .round (← ahead) then g.plainFields
  if ← mark? "=" then g.expression true

def enumItem (g : Grammar) : Reading Unit := do
  token
  token
  g.generics
  g.whereClause
  within .curly (commas g.variant)

def members (g : Grammar) (member : Reading Unit) : Reading Unit := within .curly do
  g.innerAttributes
  whileAhead (fun tokens => !tokens.isEmpty) member

def replaceable : Reading Bool := do
  let tokens ← ahead
  if startsWord ["default"] tokens && !starts "!" (tokens.drop 1) then
    token
    return true
  else return false

def interfaceMember (g : Grammar) : Reading Unit := verbatimIf do
  g.outerAttributes
  let isVisible ← visibility
  let isReplaceable ← replaceable
  let tokens ← ahead
  if startsFunction tokens then
    discard g.function
    return isVisible || isReplaceable
  else if startsWord ["const"] tokens then
    let (isPlain, _) ← g.constantItem
    return isVisible || isReplaceable || !isPlain
  else if startsWord ["type"] tokens then
    discard g.typeItem
    return isVisible || isReplaceable
  else
    macroCall
    return false

def implementationMember (g : Grammar) : Reading Unit := verbatimIf do
  g.outerAttributes
  discard visibility
  discard replaceable
  let tokens ← ahead
  if startsFunction tokens then return !(← g.function)
  else if startsWord ["const"] tokens then
    let (isPlain, isValued) ← g.constantItem
    return !isPlain || !isValued
  else if startsWord ["type"] tokens then
    let (isBounded, isValued) ← g.typeItem
    return isBounded || !isValued
  else
    macroCall
    return false

def foreignMember (g : Grammar) : Reading Unit := verbatimIf do
  g.outerAttributes
  discard visibility
  let tokens ← ahead
  if startsFunction tokens then
    let hasBody ← g.function
    return hasBody || startsWord ["safe"] tokens
  else if startsWord ["unsafe", "safe", "static"] tokens then
    if !startsWord ["static"] tokens then token
    let (_, isValued) ← g.staticItem
    return isValued || !startsWord ["static"] tokens
  else if startsWord ["type"] tokens then
    let (isBounded, isValued) ← g.typeItem
    return isBounded || isValued
  else
    macroCall
    return false

def interfaceItem (g : Grammar) : Reading Unit := do
  discard (word? "unsafe")
  discard (word? "auto")
  word "trait"
  token
  g.generics
  if ← mark? "=" then
    sequence "+" (fun tokens => startsWord ["where"] tokens || starts ";" tokens) g.bound
    g.whereClause
    mark ";"
  else
    g.colonBounds fun tokens => startsWord ["where"] tokens || startsGroup .curly tokens
    g.whereClause
    g.members g.interfaceMember

def startsGenerics (tokens : List Token) : Bool :=
  let second := tokens.drop 1
  let third := tokens.drop 2
  starts "<" tokens &&
    (starts ">" second || starts "#" second || startsWord ["const"] second ||
      (startsLifetime second || startsName second) &&
        ([">", ",", "="].any (starts · third) || starts ":" third && !starts "::" third))

def isInterface (type : List Token) : Bool :=
  (startsName type || startsWord ["Self", "self", "super", "crate"] type || starts "::" type) &&
    type.all fun t => !t.isMark "!" && !t.isMark "+"

/-- What an implementation says behind its first word: the type that it belongs to, and whether the
form is a common one. A block that implements an interface names it first. -/
def implementationHeader (g : Grammar) : Reading (List Token × Bool) := do
  if startsGenerics (← ahead) then g.generics
  let tokens ← ahead
  if starts "?" tokens && startsWord ["const"] (tokens.drop 1) then token
  let isConstant ← word? "const"
  let tokens ← ahead
  if starts "!" tokens && !startsGroup .curly (tokens.drop 1) then token
  let first ← shownBy (g.type true)
  if ← word? "for" then
    let target ← shownBy (g.type true)
    return (target, !isConstant && isInterface first)
  else return (first, !isConstant)

def implementationItem (g : Grammar) : Reading Bool := do
  discard (word? "default")
  discard (word? "unsafe")
  word "impl"
  let (_, isCommon) ← g.implementationHeader
  g.whereClause
  g.members g.implementationMember
  return isCommon

def foreignItem (g : Grammar) : Reading Unit := do
  discard (word? "unsafe")
  word "extern"
  if !startsGroup .curly (← ahead) then token
  g.members g.foreignMember

def moduleItem (g : Grammar) : Reading Unit := do
  discard (word? "unsafe")
  word "mod"
  token
  if startsGroup .curly (← ahead) then g.members g.item else mark ";"

def macroItem : Reading Unit := do
  word "macro"
  token
  if startsGroup .round (← ahead) then token
  token

def meaningful (item : Reading Unit) : Reading Bool := do
  item
  return false

def readItem (g : Grammar) : Reading Unit := verbatimIf do
  g.outerAttributes
  let isVisible ← visibility
  let tokens ← ahead
  let second := tokens.drop 1
  let main := if startsWord ["unsafe"] tokens then second else tokens
  if startsFunction tokens then return !(← g.function)
  else if startsWord ["static"] tokens then
    let (isTyped, isValued) ← g.staticItem
    return !isTyped || !isValued
  else if startsWord ["const"] tokens then
    let (isPlain, isValued) ← g.constantItem
    return !isPlain || !isValued
  else if startsWord ["type"] tokens then
    let (isBounded, isValued) ← g.typeItem
    return isBounded || !isValued
  else if startsWord ["impl"] main || startsWord ["default"] tokens && !starts "!" second then
    let isCommon ← g.implementationItem
    return isVisible || !isCommon
  else if startsWord ["macro"] tokens then
    macroItem
    return true
  else if startsWord ["use"] tokens ||
      startsWord ["extern"] tokens && startsWord ["crate"] second then
    meaningful upToSemicolon
  else if startsWord ["enum"] tokens then meaningful g.enumItem
  else if startsWord ["struct"] tokens || startsWord ["union"] tokens && startsName second then
    meaningful g.fieldsItem
  else if startsWord ["extern"] main then meaningful g.foreignItem
  else if startsWord ["mod"] main then meaningful g.moduleItem
  else if startsWord ["trait"] main ||
      startsWord ["auto"] main && startsWord ["trait"] (main.drop 1) then
    meaningful g.interfaceItem
  else meaningful macroCall

end ContractStore.Grammar

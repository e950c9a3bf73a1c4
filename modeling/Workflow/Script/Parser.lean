import Workflow.Script.Lexer
import Workflow.Script.Program

/-!
Reading the words of a script as a program. Expressions nest at most as deep as the limits allow.
Between two words that are taken only a few calls nest, so a fuel of a few times the number of
words is never used up.
-/
namespace Workflow.Script

structure Place where
  limits : Limits
  level : Nat
  /-- The place that too deep nesting is reported at. -/
  position : Position
  isGlobal : Bool
  inLoop : Bool

/-- What the parser keeps: the words to come, the functions so far, and the variables in scope,
latest first, with whether they are constants. -/
structure Reading where
  words : List (Token × Position)
  functions : List Function
  names : List (String × Bool)

abbrev Parse (α : Type) := StateT Reading (Except SyntaxError) α

namespace Parse

def fail {α : Type} (fault : SyntaxFault) (p : Position) : Parse α :=
  throw ⟨fault, p⟩

def peek : Parse (Token × Position) := do
  match (← get).words with
  | w :: _ => return w
  | [] => return (.ending, ⟨1, 1⟩)

/-- Takes the next word; the ending stays. -/
def next : Parse (Token × Position) := do
  let w ← peek
  match w.1 with
  | .ending => return w
  | _ =>
    modify fun r => { r with words := r.words.drop 1 }
    return w

def takeSymbol (s : String) : Parse Bool := do
  let (token, _) ← peek
  if token.isSymbol s then
    let _ ← next
    return true
  else return false

def demand (s purpose : String) : Parse Position := do
  let (token, p) ← next
  match token with
  | .bad fault => fail fault p
  | _ => if token.isSymbol s then return p else fail (.missing s purpose) p

def isNext (s : String) : Parse Bool := return (← peek).1.isSymbol s

/-- Goes one level deeper. -/
def deeper (place : Place) : Parse Place :=
  if exceeds (place.level + 1) place.limits.expressionDepth then fail .tooDeep place.position
  else return { place with level := place.level + 1 }

def variableName : Parse (String × Position) := do
  let (token, p) ← next
  match token with
  | .name s => return (s, p)
  | .reserved s =>
    if isProperName s.toList then fail (.reservedWord s) p else fail .variableExpected p
  | .bad fault => fail fault p
  | _ => fail .variableExpected p

def declareName (name : String) (isConstant : Bool) : Parse Unit :=
  modify fun r => { r with names := (name, isConstant) :: r.names }

/-- Runs a parser and forgets the variables that it declares. -/
def withScope {α : Type} (inner : Parse α) : Parse α := do
  let names := (← get).names
  let a ← inner
  modify fun r => { r with names }
  return a

def literalKind : Value → String
  | .unit => "()"
  | .bool _ => "a boolean"
  | .int _ => "a number"
  | .float _ => "a floating-point number"
  | .char _ => "a character"
  | .string _ => "a string"
  | _ => "a value"

def demandBool (e : Expr) : Parse Expr :=
  let refuse (found : String) : Parse Expr := fail (.mismatch "a boolean expression" found) e.start
  match e with
  | .literal (.bool _) _ => return e
  | .literal v _ => refuse (literalKind v)
  | .template _ _ => refuse "a string"
  | .array _ _ => refuse "an array"
  | .map _ _ => refuse "an object map"
  | _ => return e

def demandIterable (e : Expr) : Parse Expr :=
  let refuse (found : String) : Parse Expr := fail (.mismatch "an iterable value" found) e.start
  match e with
  | .literal (.string _) _ => return e
  | .literal v _ => refuse (literalKind v)
  | .both _ _ | .either _ _ => refuse "a boolean"
  | _ => return e

/-- Refuses a block, or nothing at all, where a condition is expected. -/
def refuseBlock : Parse Unit := do
  let (token, p) ← peek
  let isMissing := match token with
    | .ending => true
    | t => t.isSymbol "\x7b"
  if isMissing then fail (.expressionExpected "a boolean") p

def refuseAssignment : Parse Unit := do
  let (token, p) ← peek
  if token.isSymbol "=" then fail (.advice "Possibly a typo of '=='?") p

def accessed (e : Expr) (link : Link) : Expr :=
  match e with
  | .chain root links => .chain root (links ++ [link])
  | e => .chain e [link]

/-- Negates a literal in place, as a float if the integer does not fit; any other expression is
negated when it is evaluated. -/
def negated (e : Expr) (p : Position) : Expr :=
  match e with
  | .literal (.int i) _ =>
    if i = Value.smallestInt then .literal (.float (-Json.Number.roundInt i)) p
    else .literal (.int (-i)) p
  | .literal (.float x) _ => .literal (.float (-x)) p
  | e => .operator "-" [e] p

/-- The expression of a binary operator. Faults of a comparison, other than of `!=`, and of a
search are reported at the left operand. -/
def combined (token : Token) (p : Position) (left right : Expr) : Parse Expr := do
  match token with
  | .symbol "&&" =>
    let right ← demandBool right
    return .both (← demandBool left) right
  | .symbol "||" =>
    let right ← demandBool right
    return .either (← demandBool left) right
  | .symbol "??" => return .orElse left right
  | .keyword _ => return .operator "in" [left, right] left.start
  | .symbol "!in" => return .operator "!" [.operator "in" [left, right] left.start] left.start
  | t =>
    let isOrder := t.text ∈ ["==", "<", "<=", ">", ">="]
    return .operator t.text [left, right] (if isOrder then left.start else p)

def nextPrecedence : Parse Nat := do
  let (token, p) ← peek
  match token with
  | .reserved s => if isProperName s.toList then return 0 else fail (.unknownOperator s) p
  | t => return t.precedence

/-- The place in a link chain that cannot be assigned to. -/
def badLink? (links : List Link) : Option Position :=
  links.findSome? fun link => match link with
    | .method _ _ p _ => some p
    | _ => none

/-- Refuses a target that cannot be assigned to; `p` is the place of the equals sign of a plain
assignment. -/
def checkTarget (target : Expr) (plain : Option Position) : Parse Unit := do
  if target.isFixed then fail (.assignToConstant "") target.start
  match target, plain with
  | .both _ _, some p | .either _ _, some p | .orElse _ _, some p =>
    fail (.advice "Possibly a typo of '=='?") p
  | _, _ => pure ()
  match target with
  | .name name p =>
    match (← get).names.find? (·.1 = name) with
    | some (_, true) => fail (.assignToConstant name) p
    | _ => return
  | .chain (.name _ _) links =>
    match badLink? links with
    | some p => fail .badTarget p
    | none => return
  | .chain root links =>
    fail .badTarget ((badLink? links).getD root.position)
  | e => fail .badTarget e.position

def argumentsText (function : String) : String :=
  s!"to close the arguments list of this function call '{function}'"

/-- Goes on behind an item of a list; the answer says whether the list has ended. -/
def afterItem (closing closingPurpose commaPurpose : String) : Parse Bool := do
  let (token, p) ← peek
  if token.isSymbol "," then
    let _ ← next
    return false
  else if token.isSymbol closing then return false
  else match token with
    | .ending => fail (.missing closing closingPurpose) p
    | .bad fault => fail fault p
    | _ => fail (.missing "," commaPurpose) p

mutual

def expression : Nat → Place → Parse Expr
  | 0, place => fail .tooDeep place.position
  | fuel + 1, place => do
    let place ← deeper place
    let place := { place with position := (← peek).2 }
    let left ← unary fuel place
    operators fuel place 1 left

/-- The operators behind an operand that bind more tightly than `bound`. -/
def operators : Nat → Place → Nat → Expr → Parse Expr
  | 0, place, _, _ => fail .tooDeep place.position
  | fuel + 1, place, bound, left => do
    let (token, p) ← peek
    let precedence ← nextPrecedence
    if precedence < bound || (precedence = bound && !token.bindsRight) then return left
    let _ ← next
    let right ← unary fuel place
    let following ← nextPrecedence
    let right ←
      if (precedence = following && token.bindsRight) || precedence < following then
        operators fuel place precedence right
      else pure right
    let place ← deeper place
    let place := { place with position := p }
    let e ← combined token p left right
    operators fuel place bound e

def unary : Nat → Place → Parse Expr
  | 0, place => fail .tooDeep place.position
  | fuel + 1, place => do
    let (token, p) ← peek
    let place := { place with position := p }
    match token with
    | .symbol "-" =>
      let _ ← next
      let e ← unary fuel (← deeper place)
      return negated e p
    | .symbol "+" =>
      let _ ← next
      let e ← unary fuel (← deeper place)
      match e with
      | .literal (.int _) _ | .literal (.float _) _ => return e
      | e => return .operator "+" [e] p
    | .symbol "!" =>
      let _ ← next
      let e ← unary fuel (← deeper place)
      return .operator "!" [e] p
    | _ => primary fuel place

def primary : Nat → Place → Parse Expr
  | 0, place => fail .tooDeep place.position
  | fuel + 1, place => do
    let (token, p) ← peek
    let place := { place with position := p }
    let root ← match token with
      | .ending => fail .incomplete p
      | .bad fault => fail fault p
      | .int i => do
        let _ ← next
        pure (Expr.literal (.int i) p)
      | .float x => do
        let _ ← next
        pure (Expr.literal (.float x) p)
      | .char c => do
        let _ ← next
        pure (Expr.literal (.char c) p)
      | .string s => do
        let _ ← next
        pure (Expr.literal (.string s) p)
      | .keyword "true" => do
        let _ ← next
        pure (Expr.literal (.bool true) p)
      | .keyword "false" => do
        let _ ← next
        pure (Expr.literal (.bool false) p)
      | .keyword "if" => do pure (Expr.statement (← branch fuel place))
      | .keyword "while" => do pure (Expr.statement (← whileLoop fuel place))
      | .keyword "loop" => do pure (Expr.statement (← whileLoop fuel place))
      | .keyword "do" => do pure (Expr.statement (← doLoop fuel place))
      | .keyword "for" => do pure (Expr.statement (← forLoop fuel place))
      | .symbol "\x7b" => do pure (Expr.statement (← block fuel place))
      | .symbol "(" => do
        let place ← deeper place
        let _ ← next
        if ← takeSymbol ")" then pure (Expr.literal .unit p)
        else
          let e ← expression fuel place
          let _ ← demand ")" "for a matching ( in this expression"
          pure e
      | .symbol "[" => do
        let place ← deeper place
        let _ ← next
        pure (Expr.array (← items fuel place 0) p)
      | .symbol "#\x7b" => do
        let place ← deeper place
        let _ ← next
        pure (Expr.map (← entries fuel place []) p)
      | .template s => do
        let place ← deeper place
        let _ ← next
        let rest ← templateParts fuel place
        pure (Expr.template (if s = "" then rest else .literal (.string s) p :: rest) p)
      | .name s => do
        let _ ← next
        if ← isNext "(" then
          let _ ← next
          let place ← deeper place
          pure (Expr.call s (← arguments fuel place s) p)
        else pure (Expr.name s p)
      | .reserved s => do
        let _ ← next
        if s ∈ reservedFunctions && (← isNext "(") then
          let _ ← next
          let place ← deeper place
          pure (Expr.call s (← arguments fuel place s) p)
        else if isProperName s.toList then fail (.reservedWord s) p
        else fail (.reservedSymbol s) p
      | t => fail (.unexpected t.text) p
    accesses fuel place root

def accesses : Nat → Place → Expr → Parse Expr
  | 0, place, _ => fail .tooDeep place.position
  | fuel + 1, place, e => do
    let (token, p) ← peek
    match token with
    | .symbol "." =>
      let _ ← next
      let place := { place with position := p }
      let (token, namePosition) ← peek
      let name ← match token with
        | .name s => pure s
        | .reserved s =>
          if s ∈ reservedFunctions then pure s
          else if isProperName s.toList then fail (.reservedWord s) namePosition
          else fail (.reservedSymbol s) namePosition
        | .bad fault => fail fault namePosition
        | _ => fail .propertyExpected namePosition
      let place ← deeper place
      let _ ← next
      if ← isNext "(" then
        let _ ← next
        let inner ← deeper { place with position := namePosition }
        let args ← arguments fuel inner name
        accesses fuel place (accessed e (.method name args namePosition p))
      else accesses fuel place (accessed e (.property name namePosition p))
    | .symbol "[" =>
      let _ ← next
      let place ← deeper { place with position := p }
      let key ← expression fuel place
      let _ ← demand "]" "for a matching [ in this index expression"
      accesses fuel place (accessed e (.index key p))
    | _ => return e

/-- The items of an array up to its end, `count` of them read so far. -/
def items : Nat → Place → Nat → Parse (List Expr)
  | 0, place, _ => fail .tooDeep place.position
  | fuel + 1, place, count => do
    let (token, p) ← peek
    if place.limits.arraySize ≠ 0 && place.limits.arraySize ≤ count then
      fail (.longLiteral "Size of array literal" place.limits.arraySize) p
    if token.isSymbol "]" then
      let _ ← next
      return []
    match token with
    | .ending => fail (.missing "]" "to end this array literal") p
    | _ =>
      let e ← expression fuel place
      let _ ← afterItem "]" "to end this array literal"
        "to separate the items of this array literal"
      return e :: (← items fuel place (count + 1))

def entries : Nat → Place → List String → Parse (List (String × Expr))
  | 0, place, _ => fail .tooDeep place.position
  | fuel + 1, place, seen => do
    let purpose := "to end this object map literal"
    let (token, p) ← next
    let name ← match token with
      | .symbol "\x7d" => pure none
      | .ending => fail (.missing "\x7d" purpose) p
      | .name s | .string s => pure (some s)
      | .reserved s =>
        if isProperName s.toList then fail (.reservedWord s) p else fail .propertyExpected p
      | .bad fault => fail fault p
      | _ => fail .propertyExpected p
    match name with
    | none => return []
    | some name =>
      if name ∈ seen then fail (.duplicateProperty name) p
      let _ ← demand ":" s!"to follow the property '{name}' in this object map literal"
      if place.limits.mapSize ≠ 0 && place.limits.mapSize ≤ seen.length then
        fail (.longLiteral "Number of properties in object map literal" place.limits.mapSize)
          (← peek).2
      let e ← expression fuel place
      let (token, p) ← peek
      match token with
      | .symbol "," =>
        let _ ← next
      | .symbol "\x7d" => pure ()
      | .name _ => fail (.missing "," "to separate the items of this object map literal") p
      | .bad fault => fail fault p
      | _ => fail (.missing "\x7d" purpose) p
      return (name, e) :: (← entries fuel place (name :: seen))

def templateParts : Nat → Place → Parse (List Expr)
  | 0, place => fail .tooDeep place.position
  | fuel + 1, place => do
    let inner ← block fuel place
    let (token, p) ← next
    match token with
    | .string "" => return [.statement inner]
    | .string s => return [.statement inner, .literal (.string s) p]
    | .template s =>
      let rest ← templateParts fuel place
      return .statement inner :: (if s = "" then rest else .literal (.string s) p :: rest)
    | .bad fault => fail fault p
    | t => fail (.unexpected t.text) p

def arguments : Nat → Place → String → Parse (List Expr)
  | 0, place, _ => fail .tooDeep place.position
  | fuel + 1, place, function => do
    let (token, p) ← peek
    if token.isSymbol ")" then
      let _ ← next
      return []
    match token with
    | .ending => fail (.missing ")" (argumentsText function)) p
    | .bad fault => fail fault p
    | _ =>
      let e ← expression fuel place
      let _ ← afterItem ")" (argumentsText function)
        s!"to separate the arguments to function call '{function}'"
      return e :: (← arguments fuel place function)

def block : Nat → Place → Parse Stmt
  | 0, place => fail .tooDeep place.position
  | fuel + 1, place => do
    let place ← deeper place
    let p ← demand "\x7b" "to start a statement block"
    let body ← withScope (statements fuel { place with position := p, isGlobal := false })
    return .block body p

def statements : Nat → Place → Parse (List Stmt)
  | 0, place => fail .tooDeep place.position
  | fuel + 1, place => do
    let (token, p) ← peek
    match token with
    | .symbol "\x7d" =>
      let _ ← next
      return []
    | .ending => fail (.missing "\x7d" "to terminate this block") p
    | _ =>
      match ← statement fuel place with
      | none => statements fuel place
      | some s =>
        let (token, p) ← peek
        match token with
        | .symbol "\x7d" =>
          let _ ← next
          return [s]
        | .symbol ";" =>
          let _ ← next
          return s :: (← statements fuel place)
        | token =>
          if s.closesItself then return s :: (← statements fuel place)
          else match token with
            | .bad fault => fail fault p
            | _ => fail (.missing ";" "to terminate this statement") p

def globalStatements : Nat → Place → Parse (List Stmt)
  | 0, place => fail .tooDeep place.position
  | fuel + 1, place => do
    let (token, _) ← peek
    match token with
    | .ending => return []
    | _ =>
      match ← statement fuel place with
      | none => globalStatements fuel place
      | some s =>
        let (token, p) ← peek
        match token with
        | .ending => return [s]
        | token =>
          if s.closesItself then return s :: (← globalStatements fuel place)
          else if token.isSymbol ";" then
            let _ ← next
            return s :: (← globalStatements fuel place)
          else match token with
            | .bad fault => fail fault p
            | _ => fail (.missing ";" "to terminate this statement") p

/-- A statement; nothing for an empty one and for the definition of a function. -/
def statement : Nat → Place → Parse (Option Stmt)
  | 0, place => fail .tooDeep place.position
  | fuel + 1, place => do
    let (token, p) ← peek
    let place := { place with position := p }
    let inner := { place with isGlobal := false }
    match token with
    | .symbol ";" =>
      let _ ← next
      return none
    | .symbol "\x7b" => return some (← block fuel place)
    | .keyword "fn" =>
      if place.isGlobal then
        define fuel place
        return none
      else fail .nestedFunction p
    | .keyword "if" => return some (← branch fuel inner)
    | .keyword "while" | .keyword "loop" => return some (← whileLoop fuel inner)
    | .keyword "do" => return some (← doLoop fuel inner)
    | .keyword "for" => return some (← forLoop fuel inner)
    | .keyword "continue" =>
      if place.inLoop then
        let _ ← next
        return some (.again p)
      else fail .strayBreak p
    | .keyword "break" =>
      if place.inLoop then
        let _ ← next
        return some (.leave (← optionalValue fuel place) p)
      else fail .strayBreak p
    | .keyword "return" =>
      let _ ← next
      return some (.giveBack (← optionalValue fuel place) p)
    | .keyword "throw" =>
      let _ ← next
      return some (.throwValue (← optionalValue fuel place) p)
    | .keyword "try" => return some (← attempt fuel inner)
    | .keyword "let" => return some (← declaration fuel place false)
    | .keyword "const" => return some (← declaration fuel place true)
    | .keyword "import" =>
      let _ ← next
      let path ← expression fuel (← deeper place)
      let (token, _) ← peek
      if token.isKeyword "as" then
        let _ ← next
        let (name, _) ← variableName
        declareName name true
      return some (.load path p)
    | _ =>
      let place ← deeper place
      let target ← expression fuel place
      let (token, p) ← peek
      let compound := token.compound?
      if token.isSymbol "=" || compound.isSome then
        let _ ← next
        let value ← expression fuel { place with position := p }
        checkTarget target (if compound.isSome then none else some p)
        return some (.assign target compound value p)
      else return some (.expression target)

/-- The value of a statement that may have none. -/
def optionalValue : Nat → Place → Parse (Option Expr)
  | 0, place => fail .tooDeep place.position
  | fuel + 1, place => do
    let (token, _) ← peek
    match token with
    | .ending | .symbol ";" => return none
    | .symbol "\x7d" =>
      if place.isGlobal then return some (← expression fuel (← deeper place)) else return none
    | _ => return some (← expression fuel (← deeper place))

def define : Nat → Place → Parse Unit
  | 0, place => fail .tooDeep place.position
  | fuel + 1, place => do
    let (_, front) ← next
    let (token, p) ← next
    let name ← match token with
      | .name s => pure s
      | .reserved s =>
        if s ∈ reservedFunctions then pure s
        else if isProperName s.toList then fail (.reservedWord s) p
        else fail .functionName p
      | .bad fault => fail fault p
      | _ => fail .functionName p
    let (token, q) ← next
    if !token.isSymbol "(" then fail (.functionParameters name) q
    let parameters ← parameters fuel name []
    let (token, q) ← peek
    if !token.isSymbol "\x7b" then fail (.functionBody name) q
    let functions := (← get).functions
    if functions.any fun f => f.name = name && f.parameters.length = parameters.length then
      fail (.duplicateFunction name parameters.length) front
    let names := (← get).names
    modify fun r => { r with names := parameters.map ((·, false)) }
    let inner := { place with level := 0, position := q, isGlobal := false, inLoop := false }
    let body ← block fuel inner
    modify fun r => { r with
      names
      functions := r.functions ++ [⟨name, parameters, match body with
        | .block body _ => body
        | s => [s]⟩] }

def parameters : Nat → String → List String → Parse (List String)
  | 0, _, _ => fail .tooDeep ⟨1, 1⟩
  | fuel + 1, function, seen => do
    let (token, p) ← next
    match token with
    | .symbol ")" => return seen.reverse
    | .name s =>
      if s ∈ seen then fail (.duplicateParameter function s) p
      let (token, p) ← next
      match token with
      | .symbol ")" => return (s :: seen).reverse
      | .symbol "," => parameters fuel function (s :: seen)
      | .bad fault => fail fault p
      | _ => fail (.missing "," s!"to separate the parameters of function '{function}'") p
    | .bad fault => fail fault p
    | _ => fail (.missing ")" s!"to close the parameters list of function '{function}'") p

def branch : Nat → Place → Parse Stmt
  | 0, place => fail .tooDeep place.position
  | fuel + 1, place => do
    let place ← deeper place
    let (_, p) ← next
    let place := { place with position := p }
    refuseBlock
    let condition ← demandBool (← expression fuel place)
    refuseAssignment
    let body ← bodyOf fuel place
    let (token, _) ← peek
    if token.isKeyword "else" then
      let _ ← next
      let (token, _) ← peek
      if token.isKeyword "if" then
        return .branch condition body (some (← branch fuel place)) p
      else return .branch condition body (some (← block fuel place)) p
    else return .branch condition body none p

def bodyOf : Nat → Place → Parse (List Stmt)
  | 0, place => fail .tooDeep place.position
  | fuel + 1, place => do
    match ← block fuel place with
    | .block body _ => return body
    | s => return [s]

def whileLoop : Nat → Place → Parse Stmt
  | 0, place => fail .tooDeep place.position
  | fuel + 1, place => do
    let place ← deeper place
    let (token, p) ← next
    let place := { place with position := p, inLoop := true }
    if token.isKeyword "while" then
      refuseBlock
      let condition ← demandBool (← expression fuel place)
      refuseAssignment
      let brace := (← peek).2
      let body ← bodyOf fuel place
      match condition with
      | .literal (.bool true) _ => return .loop body p brace
      | _ => return .whileLoop condition body p
    else
      let brace := (← peek).2
      return .loop (← bodyOf fuel place) p brace

def doLoop : Nat → Place → Parse Stmt
  | 0, place => fail .tooDeep place.position
  | fuel + 1, place => do
    let place ← deeper place
    let (_, p) ← next
    let place := { place with position := p }
    let body ← bodyOf fuel { place with inLoop := true }
    let (token, q) ← next
    let wanted ← match token with
      | .keyword "while" => pure true
      | .keyword "until" => pure false
      | .bad fault => fail fault q
      | _ => fail (.missing "while" "for the do statement") q
    refuseBlock
    let condition ← demandBool (← expression fuel place)
    refuseAssignment
    return .doLoop body wanted condition p

def forLoop : Nat → Place → Parse Stmt
  | 0, place => fail .tooDeep place.position
  | fuel + 1, place => do
    let place ← deeper place
    let (_, p) ← next
    let place := { place with position := p }
    let (item, counter) ←
      if ← takeSymbol "(" then
        let (item, _) ← variableName
        let _ ← demand "," "after the iteration variable name"
        let (counter, q) ← variableName
        if counter = item then fail (.duplicateVariable counter) q
        let _ ← demand ")" "to close the iteration variable"
        pure (item, some counter)
      else
        let (item, _) ← variableName
        pure (item, none)
    let (token, q) ← next
    match token with
    | .keyword "in" => pure ()
    | .bad fault => fail fault q
    | _ => fail (.missing "in" "after the iteration variable") q
    refuseBlock
    let source ← demandIterable (← expression fuel place)
    let brace := (← peek).2
    let body ← withScope do
      declareName item false
      match counter with
      | some c => declareName c false
      | none => pure ()
      bodyOf fuel { place with inLoop := true }
    return .forLoop item counter source body p brace

def attempt : Nat → Place → Parse Stmt
  | 0, place => fail .tooDeep place.position
  | fuel + 1, place => do
    let place ← deeper place
    let (_, p) ← next
    let place := { place with position := p }
    let body ← bodyOf fuel place
    let (token, q) ← next
    match token with
    | .keyword "catch" => pure ()
    | .bad fault => fail fault q
    | _ => fail (.missing "catch" "for the 'try' statement") q
    let caught ←
      if ← takeSymbol "(" then
        let (name, _) ← variableName
        let _ ← demand ")" "to enclose the catch variable"
        pure (some name)
      else pure none
    let handler ← withScope do
      match caught with
      | some name => declareName name false
      | none => pure ()
      bodyOf fuel place
    return .attempt body caught handler p

def declaration : Nat → Place → Bool → Parse Stmt
  | 0, place, _ => fail .tooDeep place.position
  | fuel + 1, place, isConstant => do
    let place ← deeper place
    let (_, p) ← next
    let (name, _) ← variableName
    let value ←
      if ← takeSymbol "=" then pure (some (← expression fuel { place with position := p }))
      else pure none
    declareName name isConstant
    return .declare name isConstant value p

end

end Parse

def Program.parse (limits : Limits) (code : String) : Except SyntaxError Program := do
  let words := tokens limits code
  let start : Place := ⟨limits, 0, ⟨1, 1⟩, true, false⟩
  let (body, reading) ←
    (Parse.globalStatements (16 * words.length + 64) start).run ⟨words, [], []⟩
  return ⟨reading.functions, body⟩

end Workflow.Script

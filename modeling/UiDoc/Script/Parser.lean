import UiDoc.Script.FieldName
import UiDoc.Script.Infix
import UiDoc.Script.Pattern
import UiDoc.Script.Reader
import UiDoc.Script.Regular
import UiDoc.Script.Statement

/-!
# Reading scripts

A script is one expression.  The expression ends where no operator continues it, and nothing but the
next token of the text behind it is looked at.  Scripts may use little of the language, but default
values of parameters can hold any expression, functions and classes with all their statements
included.

Every function here takes fuel, which bounds how deeply calls nest.  Each call either goes past a
token or down one of a few levels, so a multiple of the length of the text is enough.
-/

namespace UiDoc.Script

namespace Parser

open Reader

/-- What the parameters and the body of a function mention, and how many parameters there are. -/
structure Signature where
  mentions : Mentions
  count : Nat
  /-- Whether the last parameter takes the rest of the arguments. -/
  takesRest : Bool

/-- The variables of a declaration. -/
structure Declared where
  mentions : Mentions
  count : Nat
  /-- Whether one has no initial value. -/
  bare : Bool
  /-- Whether a pattern has no initial value. -/
  barePattern : Bool
  /-- Whether one has an initial value. -/
  given : Bool

/-- Whether a word is an operator here.  Where it is a name, no operand may stand behind it. -/
def isOperatorWord (word : String) (active : Bool) : Reader Bool := do
  if ← isAtWord word then
    if active then return true
    else
      match ← second with
      | some c => if !c.newline && startsOperand c.token then failure else return false
      | none => return false
  else return false

/-- Fails in front of the sign for powers. -/
def noPower : Reader Unit := do
  if ← isAt "**" then failure else return ()

/-- A value, counted up or down behind it in the same line. -/
def updated (target : Tree) : Reader Tree := do
  let c ← cursor
  if (c.atSign "++" || c.atSign "--") && !c.newline then
    match target.simplePlace? with
    | some written =>
        skip
        return .other written
    | none => failure
  else return target

/-- The head of a function whose parameters have been read, if an arrow with a body follows. -/
def arrowHead (inner : Enclosed) : Reader (Option Head) := do
  let c ← cursor
  if c.atSign "=>" then
    match inner.head with
    | .error .expression => return none
    | head =>
        match c.next? with
        | none => failure
        | some next =>
            if !next.isReadable then return none
            else
              match head with
              | .ok head => if c.newline then failure else return some head
              | .error _ => failure
  else return none

/-- A function with a body that gives a value back. -/
def arrowTree (deferred : Bool) (head : Head) (body : Tree) : Tree :=
  match head.parameters, deferred with
  | some parameters, false => .arrow parameters head.mentions body
  | _, _ => .other (head.mentions ++ body.mentions)

/-- Goes past a word in front of the name of a field.  `others` tells what else may follow it, and
`sameLine` whether that has to be in the same line. -/
def modifier (word : String) (others : List String) (sameLine : Bool) : Reader Bool := do
  if ← isAtWord word then
    match ← second with
    | some c =>
        if (startsFieldName c.token || others.any c.atSign) && !(sameLine && c.newline) then
          expectWord word
          return true
        else return false
    | none => return false
  else return false

/-- Whether the tokens here are those of a function whose body runs later. -/
def startsDeferred (word : String) : Reader Bool := do
  match ← second with
  | some c => return c.atWord word && !c.newline
  | none => return false

/-- Checks the parameters of what reads or writes a field. -/
def checkAccessor (getter setter : Bool) (signature : Signature) : Reader Unit := do
  if getter && signature.count != 0 then failure
  else if setter && (signature.count != 1 || signature.takesRest) then failure
  else return ()

/-- Whether a declaration with `let` starts here.  `single` tells whether there is room for one
statement only. -/
def startsLet (single : Bool) : Reader Bool := do
  match ← second with
  | some c =>
      return match c.token with
        | .name word _ => !single && word != "in" && word != "instanceof"
        | .sign s => s = "[" || (s = "\x7b" && !single)
        | _ => false
  | none => return false

/-- The kind of declaration that starts here. -/
def declaration? (single : Bool) : Reader (Option String) := do
  match (← cursor).token with
  | .name "var" false => return some "var"
  | .name "const" false => return some "const"
  | .name "let" false => if ← startsLet single then return some "let" else return none
  | .name "using" false =>
      match ← second with
      | some c =>
          return match c.token with
            | .name word _ =>
                if c.newline || single || ["in", "instanceof", "of"].contains word then none
                else some "using"
            | _ => none
      | none => return none
  | _ => return none

/-- Checks that the variables of a declaration have the initial values that they need. -/
def checkDeclared (kind : String) (declared : Declared) : Reader Unit := do
  if declared.barePattern then failure
  else if declared.bare && (kind == "const" || kind == "using") then failure
  else return ()

/-- Whether what stands behind `yield` in its line cannot be its operand. -/
def endsYield (c : Cursor) : Bool :=
  c.newline || !c.isReadable || c.atWord "in" ||
    [";", "]", "\x7d", ")", ":", ","].any c.atSign

/-- The words with which statements start, declarations and `return` apart. -/
def compoundWords : List String := [
  "if", "while", "with", "do", "for", "switch", "try", "throw", "break", "continue", "debugger"]

/-- Checks the name of a part of a class: `shared` parts, `special` ones and methods have limits of
their own. -/
def checkElement (shared special : Bool) (key : FieldName) (isMethod : Bool) : Reader Unit := do
  match key with
  | .hidden "constructor" => failure
  | .word n | .literal n =>
      if shared && n == "prototype" then failure
      else if !shared && n == "constructor" && (special || !isMethod) then failure
      else return ()
  | _ => return ()

mutual

/-- Reads an expression, or several with commas between them. -/
def expression (fuel : Nat) (ctx : Context) : Reader Tree :=
  match fuel with
  | 0 => failure
  | fuel + 1 => do
      let first ← assignment fuel ctx
      if ← accept "," then
        let rest ← expression fuel ctx
        return .other (first.mentions ++ rest.mentions)
      else return first
termination_by structural fuel

/-- Reads an expression without commas. -/
def assignment (fuel : Nat) (ctx : Context) : Reader Tree :=
  match fuel with
  | 0 => failure
  | fuel + 1 => do
      let c ← cursor
      if ← isOperatorWord "yield" ctx.yields then yielding fuel ctx
      else if c.atSign "(" then
        skip
        let inner ← enclosed fuel ctx.inside
        match ← arrowHead inner with
        | some head => arrow fuel ctx false head
        | none =>
            match inner.expression? with
            | some tree => operandRest fuel ctx tree
            | none => failure
      else if c.atWord "async" then deferred fuel ctx
      else
        let left ← infixed fuel ctx 0
        assignmentRest fuel ctx left
termination_by structural fuel

/-- Reads an expression that starts with `async`, unless that is part of a longer operand. -/
def deferred (fuel : Nat) (ctx : Context) : Reader Tree :=
  match fuel with
  | 0 => failure
  | fuel + 1 => do
      match ← second with
      | none => failure
      | some next =>
          if next.newline then
            let left ← infixed fuel ctx 0
            assignmentRest fuel ctx left
          else if next.atSign "(" then
            skip
            skip
            let inner ← enclosed fuel ctx.inside
            match ← arrowHead inner with
            | some head => arrow fuel ctx true head
            | none => operandRest fuel ctx (.call (.name "async") inner.items false)
          else if (next.next?.any fun c => c.atSign "=>") && !next.atSign "=>" then
            match next.token with
            | .name _ _ =>
                expectWord "async"
                let parameter ← name { ctx with waits := true }
                if (← cursor).newline then failure
                else arrow fuel ctx true ⟨some [parameter], { bound := [parameter] }⟩
            | _ =>
                let left ← infixed fuel ctx 0
                assignmentRest fuel ctx left
          else
            let left ← infixed fuel ctx 0
            assignmentRest fuel ctx left
termination_by structural fuel

/-- Reads what continues an operand that has been read up to its accesses. -/
def operandRest (fuel : Nat) (ctx : Context) (operand : Tree) : Reader Tree :=
  match fuel with
  | 0 => failure
  | fuel + 1 => do
      let target ← access fuel ctx true operand
      let target ← updated target
      let left ← infixedRest fuel ctx 0 target
      assignmentRest fuel ctx left
termination_by structural fuel

/-- Reads `yield` and its operand. -/
def yielding (fuel : Nat) (ctx : Context) : Reader Tree :=
  match fuel with
  | 0 => failure
  | fuel + 1 => do
      expectWord "yield"
      let c ← cursor
      if !c.newline && c.atSign "*" then
        skip
        let value ← assignment fuel ctx
        return .other value.mentions
      else if endsYield c then return .other {}
      else
        let value ← assignment fuel ctx
        return .other value.mentions
termination_by structural fuel

/-- Reads what continues an expression behind its operators: the arrow of a function, a choice, or
an assignment. -/
def assignmentRest (fuel : Nat) (ctx : Context) (left : Tree) : Reader Tree :=
  match fuel with
  | 0 => failure
  | fuel + 1 => do
      let c ← cursor
      match left, c.token with
      | .name n, .sign "=>" =>
          if c.newline then failure else arrow fuel ctx false ⟨some [n], { bound := [n] }⟩
      | _, .sign "?" =>
          skip
          let yes ← assignment fuel ctx.inside
          expect ":"
          let no ← assignment fuel ctx
          return .conditional left yes no
      | _, .sign "=" =>
          match left.place? with
          | some written =>
              skip
              let value ← assignment fuel ctx
              return .assign left written value
          | none => failure
      | _, .sign s =>
          if compoundAssignments.contains s then
            match left.simplePlace? with
            | some written =>
                skip
                let value ← assignment fuel ctx
                return .other (written ++ value.mentions)
            | none => failure
          else return left
      | _, _ => return left
termination_by structural fuel

/-- Reads the arrow and the body of a function. -/
def arrow (fuel : Nat) (ctx : Context) (deferred : Bool) (head : Head) : Reader Tree :=
  match fuel with
  | 0 => failure
  | fuel + 1 => do
      expect "=>"
      if ← isAt "\x7b" then
        let statements ← body fuel (Context.ofFunction deferred false)
        match statements with
        | [.giveBack value] => return arrowTree deferred head (value.getD .nothing)
        | _ => return .other (head.mentions ++ Statement.mentionsOfAll statements)
      else
        let value ← assignment fuel { ctx with waits := deferred, yields := false }
        return arrowTree deferred head value
termination_by structural fuel

/-- Reads operands with operators between them that bind more tightly than `level`. -/
def infixed (fuel : Nat) (ctx : Context) (level : Nat) : Reader Tree :=
  match fuel with
  | 0 => failure
  | fuel + 1 => do
      match (← cursor).token with
      | .hidden _ =>
          if ctx.membership && level < Infix.comparisonLevel then
            skip
            expectWord "in"
            let right ← infixed fuel ctx Infix.comparisonLevel
            infixedRest fuel ctx level (.other right.mentions)
          else failure
      | _ =>
          let left ← unary fuel ctx
          infixedRest fuel ctx level left
termination_by structural fuel

/-- Reads the operators behind an operand. -/
def infixedRest (fuel : Nat) (ctx : Context) (level : Nat) (left : Tree) : Reader Tree :=
  match fuel with
  | 0 => failure
  | fuel + 1 => do
      let c ← cursor
      match Infix.ofToken ctx.membership c.token with
      | some (op, binding) =>
          if binding < level || (binding = level && level != Infix.powerLevel) then return left
          else
            match c.token with
            | .name word _ => expectWord word
            | _ => skip
            let right ← infixed fuel ctx binding
            match op.tree? left right with
            | some tree => infixedRest fuel ctx level tree
            | none => failure
      | none =>
          if (c.atWord "as" || c.atWord "satisfies") && !c.newline then failure else return left
termination_by structural fuel

/-- Reads an operand with the operators in front of it and behind it. -/
def unary (fuel : Nat) (ctx : Context) : Reader Tree :=
  match fuel with
  | 0 => failure
  | fuel + 1 => do
      let c ← cursor
      match UnaryOp.ofToken c.token with
      | some op =>
          skip
          let operand ← unary fuel ctx
          noPower
          return .unary op operand
      | none =>
          if c.token = .name "delete" false then
            skip
            let operand ← unary fuel ctx
            noPower
            return .other operand.mentions
          else if c.atSign "++" || c.atSign "--" then
            skip
            let operand ← unary fuel ctx
            match operand.simplePlace? with
            | some written => return .other written
            | none => failure
          else if ← isOperatorWord "await" ctx.waits then
            expectWord "await"
            let operand ← unary fuel ctx
            noPower
            return .other operand.mentions
          else
            let target ← accessed fuel ctx
            updated target
termination_by structural fuel

/-- Reads a value with accesses and calls behind it. -/
def accessed (fuel : Nat) (ctx : Context) : Reader Tree :=
  match fuel with
  | 0 => failure
  | fuel + 1 => do
      let target ← primary fuel ctx
      access fuel ctx true target
termination_by structural fuel

/-- Reads the accesses behind a value, and the calls if `calls` says so. -/
def access (fuel : Nat) (ctx : Context) (calls : Bool) (target : Tree) : Reader Tree :=
  match fuel with
  | 0 => failure
  | fuel + 1 => do
      match (← cursor).token with
      | .sign "." =>
          skip
          match (← cursor).token with
          | .name name _ =>
              skip
              access fuel ctx calls (.member target name false)
          | .hidden _ =>
              skip
              access fuel ctx calls (.hidden target.mentions target.isChain)
          | _ => failure
      | .sign "?." =>
          if calls then
            skip
            match (← cursor).token with
            | .name name _ =>
                skip
                access fuel ctx calls (.member target name true)
            | .hidden _ =>
                skip
                access fuel ctx calls (.hidden target.mentions true)
            | .sign "[" =>
                skip
                let key ← expression fuel ctx.inside
                expect "]"
                access fuel ctx calls (.index target key true)
            | .sign "(" =>
                skip
                let inner ← enclosed fuel ctx.inside
                access fuel ctx calls (.call target inner.items true)
            | _ => failure
          else failure
      | .sign "[" =>
          skip
          let key ← expression fuel ctx.inside
          expect "]"
          access fuel ctx calls (.index target key false)
      | .sign "(" =>
          if calls then
            skip
            let inner ← enclosed fuel ctx.inside
            access fuel ctx calls (.call target inner.items false)
          else return target
      | .template _ _ _ =>
          if target.isChain then failure
          else
            let (_, parts) ← templateParts fuel ctx.inside true
            access fuel ctx calls (.other (target.mentions ++ Tree.mentionsOfAll parts))
      | _ => return target
termination_by structural fuel

/-- Reads what stands between parentheses, behind the opening one: arguments, parameters or
expressions. -/
def enclosed (fuel : Nat) (ctx : Context) : Reader Enclosed :=
  match fuel with
  | 0 => failure
  | fuel + 1 => do
      if ← accept ")" then return ⟨[], false⟩
      else
        let spread ← accept "..."
        let value ← assignment fuel ctx
        let first : Element Tree := if spread then .spread value else .item value
        if ← accept "," then
          if ← accept ")" then return ⟨[first], true⟩
          else
            let rest ← enclosed fuel ctx
            return ⟨first :: rest.items, rest.trailing⟩
        else
          expect ")"
          return ⟨[first], false⟩
termination_by structural fuel

/-- Reads a template whose next text is the next token. -/
def templateParts (fuel : Nat) (ctx : Context) (tagged : Bool) :
    Reader (List String × List Tree) :=
  match fuel with
  | 0 => failure
  | fuel + 1 => do
      match (← cursor).token with
      | .template s ended sound =>
          if !sound && !tagged then failure
          else
            skip
            if ended then return ([s], [])
            else
              let part ← expression fuel ctx
              let c ← cursor
              if c.atSign "\x7d" then
                set c.continueTemplate
                let (texts, parts) ← templateParts fuel ctx tagged
                return (s :: texts, part :: parts)
              else failure
      | _ => failure
termination_by structural fuel

/-- Reads the items of an array behind the opening bracket, and whether a comma stands at their
end. -/
def arrayItems (fuel : Nat) (ctx : Context) : Reader (List (Element Tree) × Bool) :=
  match fuel with
  | 0 => failure
  | fuel + 1 => do
      if ← accept "]" then return ([], false)
      else if ← accept "," then
        let (rest, trailing) ← arrayItems fuel ctx
        return (.item .hole :: rest, trailing)
      else
        let spread ← accept "..."
        let value ← assignment fuel ctx
        let first : Element Tree := if spread then .spread value else .item value
        if ← accept "," then
          if ← accept "]" then return ([first], true)
          else
            let (rest, trailing) ← arrayItems fuel ctx
            return (first :: rest, trailing)
        else
          expect "]"
          return ([first], false)
termination_by structural fuel

/-- Reads the parts of an object behind the opening brace, and whether a comma stands at their
end. -/
def objectEntries (fuel : Nat) (ctx : Context) : Reader (List (Entry Tree) × Bool) :=
  match fuel with
  | 0 => failure
  | fuel + 1 => do
      if ← accept "\x7d" then return ([], false)
      else
        let first ← objectEntry fuel ctx
        if ← accept "," then
          if ← accept "\x7d" then return ([first], true)
          else
            let (rest, trailing) ← objectEntries fuel ctx
            return (first :: rest, trailing)
        else
          expect "\x7d"
          return ([first], false)
termination_by structural fuel

/-- Reads a part of an object. -/
def objectEntry (fuel : Nat) (ctx : Context) : Reader (Entry Tree) :=
  match fuel with
  | 0 => failure
  | fuel + 1 => do
      if ← accept "..." then
        let value ← assignment fuel ctx
        return .spread value
      else
        let deferred ← modifier "async" ["*"] true
        let steps ← accept "*"
        let getter ← if deferred || steps then pure false else modifier "get" [] false
        let setter ← if deferred || steps || getter then pure false else modifier "set" [] false
        let key ← fieldName fuel ctx
        if ← isAt "(" then
          let signature ← signature fuel (Context.ofFunction deferred steps)
          checkAccessor getter setter signature
          return .method (key.mentions ++ signature.mentions)
        else if deferred || steps || getter || setter then failure
        else
          match key with
          | .word n =>
              if ← accept ":" then
                let value ← assignment fuel ctx
                return .field n value
              else if !ctx.admits n then failure
              else if ← accept "=" then
                let value ← assignment fuel ctx
                return .shortDefault n value
              else return .short n
          | .literal n =>
              expect ":"
              let value ← assignment fuel ctx
              return .field n value
          | .computed key =>
              expect ":"
              let value ← assignment fuel ctx
              return .computed key value
          | .hidden _ => failure
termination_by structural fuel

/-- Reads the name of a field. -/
def fieldName (fuel : Nat) (ctx : Context) : Reader FieldName :=
  match fuel with
  | 0 => failure
  | fuel + 1 => do
      match FieldName.ofToken? (← cursor).token with
      | some name =>
          skip
          return name
      | none =>
          expect "["
          let key ← assignment fuel ctx.inside
          expect "]"
          return .computed key
termination_by structural fuel

/-- Reads a value without accesses. -/
def primary (fuel : Nat) (ctx : Context) : Reader Tree :=
  match fuel with
  | 0 => failure
  | fuel + 1 => do
      match (← cursor).token with
      | .number x =>
          skip
          return .number x
      | .bigNumber _ =>
          skip
          return .other {}
      | .text s =>
          skip
          return .text s
      | .template _ _ _ =>
          let (texts, parts) ← templateParts fuel ctx.inside false
          return .template texts parts
      | .sign "(" =>
          skip
          let inner ← enclosed fuel ctx.inside
          match inner.expression? with
          | some tree => return tree
          | none => failure
      | .sign "[" =>
          skip
          let (items, trailing) ← arrayItems fuel ctx.inside
          return .array items trailing
      | .sign "\x7b" =>
          skip
          let (entries, trailing) ← objectEntries fuel ctx.inside
          return .object entries trailing
      | .sign "@" =>
          let marks ← decorators fuel ctx
          expectWord "class"
          let inner ← classRest fuel ctx.inside false
          return .other (marks ++ inner)
      | .sign _ => fun c => c.behindPattern?.map (.other {}, ·)
      | .name "true" false =>
          skip
          return .truth true
      | .name "false" false =>
          skip
          return .truth false
      | .name "null" false =>
          skip
          return .null
      | .name "this" false =>
          skip
          return .other {}
      | .name "super" false =>
          skip
          if (← isAt ".") || (← isAt "[") || (← isAt "(") then return .other {} else failure
      | .name "new" false =>
          skip
          construction fuel ctx
      | .name "import" false =>
          skip
          inclusion fuel ctx.inside
      | .name "class" false =>
          skip
          let inner ← classRest fuel ctx.inside false
          return .other inner
      | .name "function" false =>
          skip
          let inner ← functionRest fuel ctx false false
          return .other inner
      | .name n escaped =>
          if n = "async" && !escaped && (← startsDeferred "function") then
            skip
            skip
            let inner ← functionRest fuel ctx true false
            return .other inner
          else return .name (← name ctx)
      | .hidden _ | .unreadable | .finish => failure
termination_by structural fuel

/-- Reads what stands behind `new`. -/
def construction (fuel : Nat) (ctx : Context) : Reader Tree :=
  match fuel with
  | 0 => failure
  | fuel + 1 => do
      if ← accept "." then
        expectWord "target"
        return .other {}
      else if (← isAtWord "import") && ((← second).any fun c => c.atSign "(") then failure
      else
        let callee ← primary fuel ctx
        let callee ← access fuel ctx false callee
        if ← accept "(" then
          let inner ← enclosed fuel ctx.inside
          return .other (callee.mentions ++ Tree.mentionsOfItems inner.items)
        else return .other callee.mentions
termination_by structural fuel

/-- Reads what stands behind `import`. -/
def inclusion (fuel : Nat) (ctx : Context) : Reader Tree :=
  match fuel with
  | 0 => failure
  | fuel + 1 => do
      let dotted ← accept "."
      if dotted && (← isAtWord "meta") then
        expectWord "meta"
        return .other {}
      else
        if dotted && !(← acceptWord "source") then expectWord "defer"
        expect "("
        let source ← assignment fuel ctx
        let inner ← if ← accept "," then enclosed fuel ctx else do
          expect ")"
          pure ⟨[], false⟩
        match inner.items with
        | [] => return .other source.mentions
        | [.item options] => return .other (source.mentions ++ options.mentions)
        | _ => failure
termination_by structural fuel

/-- Reads a function behind the word `function`.  `named` tells whether it has to have a name, which
is then one of its surroundings. -/
def functionRest (fuel : Nat) (ctx : Context) (deferred named : Bool) : Reader Mentions :=
  match fuel with
  | 0 => failure
  | fuel + 1 => do
      let steps ← accept "*"
      let inner := Context.ofFunction deferred steps
      let own ←
        if named then
          let n ← name ctx
          pure [n]
        else
          let n ← name? inner
          pure n.toList
      let signature ← signature fuel inner
      return { bound := own } ++ signature.mentions
termination_by structural fuel

/-- Reads the parameters and the body of a function. -/
def signature (fuel : Nat) (inner : Context) : Reader Signature :=
  match fuel with
  | 0 => failure
  | fuel + 1 => do
      expect "("
      let head ← parameterList fuel inner
      let statements ← body fuel inner
      return { head with mentions := head.mentions ++ Statement.mentionsOfAll statements }
termination_by structural fuel

/-- Reads parameters behind the opening parenthesis. -/
def parameterList (fuel : Nat) (ctx : Context) : Reader Signature :=
  match fuel with
  | 0 => failure
  | fuel + 1 => do
      if ← accept ")" then return ⟨{}, 0, false⟩
      else if ← accept "..." then
        let last ← binding fuel ctx
        expect ")"
        return ⟨last.1, 1, true⟩
      else
        let first ← binding fuel ctx
        let value ← initial fuel ctx
        let first := first.1 ++ value.getD {}
        if ← accept "," then
          let rest ← parameterList fuel ctx
          return { rest with mentions := first ++ rest.mentions, count := rest.count + 1 }
        else
          expect ")"
          return ⟨first, 1, false⟩
termination_by structural fuel

/-- Reads a name or a pattern that introduces names, and whether it is a pattern. -/
def binding (fuel : Nat) (ctx : Context) : Reader (Mentions × Bool) :=
  match fuel with
  | 0 => failure
  | fuel + 1 => do
      if (← isAt "[") || (← isAt "\x7b") then
        let tree ← primary fuel ctx
        match tree.binder with
        | .ok mentions => return (mentions, true)
        | .error _ => failure
      else
        let n ← name ctx
        return ({ bound := [n] }, false)
termination_by structural fuel

/-- Reads the value behind `=`, if there is one. -/
def initial (fuel : Nat) (ctx : Context) : Reader (Option Mentions) :=
  match fuel with
  | 0 => failure
  | fuel + 1 => do
      if ← accept "=" then
        let value ← assignment fuel ctx
        return some value.mentions
      else return none
termination_by structural fuel

/-- Reads the body of a function, without the texts at its start. -/
def body (fuel : Nat) (ctx : Context) : Reader (List Statement) :=
  match fuel with
  | 0 => failure
  | fuel + 1 => do
      expect "\x7b"
      return Statement.behindTexts (← statements fuel ctx)
termination_by structural fuel

/-- Reads statements up to the closing brace. -/
def statements (fuel : Nat) (ctx : Context) : Reader (List Statement) :=
  match fuel with
  | 0 => failure
  | fuel + 1 => do
      if ← accept "\x7d" then return []
      else
        let first ← statement fuel ctx false
        let rest ← statements fuel ctx
        return first :: rest
termination_by structural fuel

/-- Reads a statement.  `single` tells whether it stands where there is room for one statement
only. -/
def statement (fuel : Nat) (ctx : Context) (single : Bool) : Reader Statement :=
  match fuel with
  | 0 => failure
  | fuel + 1 => do
      match ← declaration? single with
      | some kind =>
          if single && kind != "var" then failure
          else
            skip
            let declared ← declarations fuel ctx
            checkDeclared kind declared
            endStatement
            return .other declared.mentions
      | none =>
          match (← cursor).token with
          | .sign "\x7b" =>
              skip
              return .other (Statement.mentionsOfAll (← statements fuel ctx))
          | .sign ";" =>
              skip
              return .other {}
          | .sign "@" =>
              if single then failure
              else
                let marks ← decorators fuel ctx
                expectWord "class"
                let inner ← classRest fuel ctx true
                return .other (marks ++ inner)
          | .name "class" false =>
              if single then failure
              else
                skip
                return .other (← classRest fuel ctx true)
          | .name "function" false =>
              skip
              if single && (← isAt "*") then failure
              else return .other (← functionRest fuel ctx false true)
          | .name "return" false =>
              skip
              if ctx.returns then
                let c ← cursor
                if c.newline || c.atSign ";" || c.atSign "\x7d" then
                  endStatement
                  return .giveBack none
                else
                  let value ← expression fuel ctx
                  endStatement
                  return .giveBack (some value)
              else failure
          | .name n escaped =>
              if !escaped && compoundWords.contains n then
                skip
                return .other (← compound fuel ctx n)
              else if n = "async" && !escaped && (← startsDeferred "function") then
                if single then failure
                else
                  skip
                  skip
                  return .other (← functionRest fuel ctx true true)
              else if ctx.admits n && ((← second).any fun c => c.atSign ":") then
                skip
                skip
                return .other (← statement fuel ctx true).mentions
              else
                let tree ← expression fuel ctx
                endStatement
                return .expression tree
          | _ =>
              let tree ← expression fuel ctx
              endStatement
              return .expression tree
termination_by structural fuel

/-- Reads a statement behind the word with which it starts. -/
def compound (fuel : Nat) (ctx : Context) (word : String) : Reader Mentions :=
  match fuel with
  | 0 => failure
  | fuel + 1 => do
      match word with
      | "if" =>
          let test ← parenthesized fuel ctx
          let yes ← statement fuel ctx true
          if ← acceptWord "else" then
            let no ← statement fuel ctx true
            return test ++ (yes.mentions ++ no.mentions)
          else return test ++ yes.mentions
      | "while" | "with" =>
          let test ← parenthesized fuel ctx
          let inner ← statement fuel ctx true
          return test ++ inner.mentions
      | "do" =>
          let inner ← statement fuel ctx true
          expectWord "while"
          let test ← parenthesized fuel ctx
          let _ ← accept ";"
          return inner.mentions ++ test
      | "for" =>
          let waits ← isAtWord "await"
          if waits then
            if ctx.waits then expectWord "await" else failure
          expect "("
          let head ← forHead fuel ctx waits
          let inner ← statement fuel ctx true
          return head ++ inner.mentions
      | "switch" =>
          let test ← parenthesized fuel ctx
          expect "\x7b"
          let inner ← cases fuel ctx false
          return test ++ inner
      | "try" =>
          expect "\x7b"
          let inner ← statements fuel ctx
          let caught ← catching fuel ctx
          if ← acceptWord "finally" then
            expect "\x7b"
            let last ← statements fuel ctx
            return Statement.mentionsOfAll inner ++
              (caught.getD {} ++ Statement.mentionsOfAll last)
          else
            match caught with
            | some caught => return Statement.mentionsOfAll inner ++ caught
            | none => failure
      | "throw" =>
          if (← cursor).newline then failure
          else
            let value ← expression fuel ctx
            endStatement
            return value.mentions
      | "break" | "continue" =>
          if !(← cursor).newline then
            let _ ← name? ctx
          endStatement
          return {}
      | _ =>
          endStatement
          return {}
termination_by structural fuel

/-- Reads an expression in parentheses. -/
def parenthesized (fuel : Nat) (ctx : Context) : Reader Mentions :=
  match fuel with
  | 0 => failure
  | fuel + 1 => do
      expect "("
      let inner ← expression fuel ctx
      expect ")"
      return inner.mentions
termination_by structural fuel

/-- Reads the variables of a declaration behind its first word. -/
def declarations (fuel : Nat) (ctx : Context) : Reader Declared :=
  match fuel with
  | 0 => failure
  | fuel + 1 => do
      let (first, pattern) ← binding fuel ctx
      let value ← initial fuel ctx
      let bare := value.isNone
      let mentions := first ++ value.getD {}
      if ← accept "," then
        let rest ← declarations fuel ctx
        return {
          mentions := mentions ++ rest.mentions
          count := rest.count + 1
          bare := bare || rest.bare
          barePattern := (bare && pattern) || rest.barePattern
          given := !bare || rest.given }
      else
        return { mentions, count := 1, bare, barePattern := bare && pattern, given := !bare }
termination_by structural fuel

/-- Reads what stands in the parentheses of `for`, behind the opening one. -/
def forHead (fuel : Nat) (ctx : Context) (waits : Bool) : Reader Mentions :=
  match fuel with
  | 0 => failure
  | fuel + 1 => do
      match ← declaration? false with
      | some kind =>
          skip
          let declared ← declarations fuel { ctx with membership := false }
          if (← isAtWord "of") || (← isAtWord "in") then
            if declared.count = 1 && !declared.given then
              return declared.mentions ++ (← forSource fuel ctx waits)
            else failure
          else if waits then failure
          else
            checkDeclared kind declared
            return declared.mentions ++ (← forLimits fuel ctx)
      | none =>
          if ← isAt ";" then
            if waits then failure else forLimits fuel ctx
          else
            let c ← cursor
            let next ← second
            let unclear := !waits && c.token = .name "async" false &&
              next.any fun c => c.atWord "of" && !(c.next?.any fun c => c.atSign "=>")
            let target ← expression fuel { ctx with membership := false }
            if (← isAtWord "of") || (← isAtWord "in") then
              match target.place? with
              | some written =>
                  if (unclear || c.atWord "let") && (← isAtWord "of") then failure
                  else return written ++ (← forSource fuel ctx waits)
              | none => failure
            else if waits then failure
            else return target.mentions ++ (← forLimits fuel ctx)
termination_by structural fuel

/-- Reads the source of the values in the parentheses of `for`. -/
def forSource (fuel : Nat) (ctx : Context) (waits : Bool) : Reader Mentions :=
  match fuel with
  | 0 => failure
  | fuel + 1 => do
      if ← acceptWord "of" then
        let source ← assignment fuel ctx
        expect ")"
        return source.mentions
      else if waits then failure
      else
        expectWord "in"
        let source ← expression fuel ctx
        expect ")"
        return source.mentions
termination_by structural fuel

/-- Reads the rest of what stands in the parentheses of `for` behind the initial values. -/
def forLimits (fuel : Nat) (ctx : Context) : Reader Mentions :=
  match fuel with
  | 0 => failure
  | fuel + 1 => do
      expect ";"
      let test ← if ← isAt ";" then pure {} else do
        let tree ← expression fuel ctx
        pure tree.mentions
      expect ";"
      let update ← if ← isAt ")" then pure {} else do
        let tree ← expression fuel ctx
        pure tree.mentions
      expect ")"
      return test ++ update
termination_by structural fuel

/-- Reads the cases of `switch` up to the closing brace. -/
def cases (fuel : Nat) (ctx : Context) (opened : Bool) : Reader Mentions :=
  match fuel with
  | 0 => failure
  | fuel + 1 => do
      if ← accept "\x7d" then return {}
      else if ← acceptWord "case" then
        let test ← expression fuel ctx
        expect ":"
        return test.mentions ++ (← cases fuel ctx true)
      else if ← acceptWord "default" then
        expect ":"
        cases fuel ctx true
      else if opened then
        let first ← statement fuel ctx false
        return first.mentions ++ (← cases fuel ctx true)
      else failure
termination_by structural fuel

/-- Reads what catches a fault, if there is something. -/
def catching (fuel : Nat) (ctx : Context) : Reader (Option Mentions) :=
  match fuel with
  | 0 => failure
  | fuel + 1 => do
      if ← acceptWord "catch" then
        let parameter ← if ← accept "(" then do
            let (parameter, _) ← binding fuel ctx
            expect ")"
            pure parameter
          else pure {}
        expect "\x7b"
        let inner ← statements fuel ctx
        return some (parameter ++ Statement.mentionsOfAll inner)
      else return none
termination_by structural fuel

/-- Reads the marks in front of a class or a part of it. -/
def decorators (fuel : Nat) (ctx : Context) : Reader Mentions :=
  match fuel with
  | 0 => failure
  | fuel + 1 => do
      if ← accept "@" then
        let first ← accessed fuel ctx
        return first.mentions ++ (← decorators fuel ctx)
      else return {}
termination_by structural fuel

/-- Reads a class behind the word `class`; `named` tells whether it has to have a name. -/
def classRest (fuel : Nat) (ctx : Context) (named : Bool) : Reader Mentions :=
  match fuel with
  | 0 => failure
  | fuel + 1 => do
      let own ← name? ctx
      if named && own.isNone then failure
      else
        let base ← if ← acceptWord "extends" then do
            let tree ← accessed fuel ctx
            pure tree.mentions
          else pure {}
        expect "\x7b"
        let inner ← classElements fuel ctx
        return { bound := own.toList } ++ (base ++ inner)
termination_by structural fuel

/-- Reads the parts of a class up to the closing brace. -/
def classElements (fuel : Nat) (ctx : Context) : Reader Mentions :=
  match fuel with
  | 0 => failure
  | fuel + 1 => do
      if ← accept "\x7d" then return {}
      else if ← accept ";" then classElements fuel ctx
      else
        let first ← classElement fuel ctx
        return first ++ (← classElements fuel ctx)
termination_by structural fuel

/-- Reads a part of a class. -/
def classElement (fuel : Nat) (ctx : Context) : Reader Mentions :=
  match fuel with
  | 0 => failure
  | fuel + 1 => do
      let marks ← decorators fuel ctx
      let shared ← modifier "static" ["*", "\x7b"] false
      if shared && (← isAt "\x7b") then
        skip
        let inner ← statements fuel { waits := true }
        return marks ++ Statement.mentionsOfAll inner
      else
        let deferred ← modifier "async" ["*"] true
        let backed ← if deferred then pure false else modifier "accessor" [] true
        let steps ← accept "*"
        let plain := deferred || backed || steps
        let getter ← if plain then pure false else modifier "get" [] false
        let setter ← if plain || getter then pure false else modifier "set" [] false
        let key ← fieldName fuel ctx
        checkElement shared (plain || getter || setter) key (← isAt "(")
        if ← isAt "(" then
          let signature ← signature fuel (Context.ofFunction deferred steps)
          checkAccessor getter setter signature
          if backed then failure
          else return marks ++ (key.mentions ++ signature.mentions)
        else if deferred || steps || getter || setter then failure
        else
          let value ← initial fuel {}
          endStatement
          return marks ++ (key.mentions ++ value.getD {})
termination_by structural fuel

end

end Parser

/-- The tree of the expression at the start of a text. -/
def Tree.parse? (source : String) : Option Tree := do
  let cs := source.toList
  let first ← Cursor.first? cs
  let (tree, last) ← (Parser.expression (16 * cs.length + 64) { waits := true }).run first
  if last.token = .unreadable ∨ tree.mentions.loose then none else some tree

end UiDoc.Script

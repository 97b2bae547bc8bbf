/-
# Reading JSON

A value is read token by token, with the containers that are still open on a stack. A state says
what may come next:

| state | next token |
| --- | --- |
| `value` | a value begins |
| `items` | just after `[`: a value begins, or `]` |
| `members` | just after `{`: a key, or `}` |
| `key` | just after a comma in an object: a key |
| `colon` | just after a key |
| `done` | just after a value: a comma or the end of the container around it |

A text is a value if the state at its end is `done` with no open container.
-/

import Bindery.Json.Basic
import Bindery.Json.Token

namespace Bindery
namespace Json

/-- A container that is still open, with what it holds so far, last first. -/
inductive Frame where
  | array (items : List Json)
  | object (members : List (Option String × Json)) (key : Option String)

/-- What has been read and what may come next. -/
inductive State where
  | value (stack : List Frame)
  | items (stack : List Frame)
  | members (stack : List Frame)
  | key (members : List (Option String × Json)) (stack : List Frame)
  | colon (members : List (Option String × Json)) (key : Option String) (stack : List Frame)
  | done (v : Json) (stack : List Frame)

/-- The state after a token that begins a value. -/
def begin? (stack : List Frame) : Token → Option State
  | .openArray => some (.items stack)
  | .openObject => some (.members stack)
  | .null => some (.done .null stack)
  | .bool b => some (.done (.bool b) stack)
  | .number spelling => some (.done (.number spelling) stack)
  | .text s => some (.done (.text s) stack)
  | _ => none

/-- The state after a token. -/
def step? : State → Token → Option State
  | .value stack, t => begin? stack t
  | .items stack, .closeArray => some (.done (.array []) stack)
  | .items stack, t => begin? (.array [] :: stack) t
  | .members stack, .closeObject => some (.done (.object []) stack)
  | .members stack, .text k => some (.colon [] k stack)
  | .key members stack, .text k => some (.colon members k stack)
  | .colon members k stack, .colon => some (.value (.object members k :: stack))
  | .done v (.array items :: stack), .comma => some (.value (.array (v :: items) :: stack))
  | .done v (.array items :: stack), .closeArray =>
    some (.done (.array (v :: items).reverse) stack)
  | .done v (.object members k :: stack), .comma => some (.key ((k, v) :: members) stack)
  | .done v (.object members k :: stack), .closeObject =>
    some (.done (.object ((k, v) :: members).reverse) stack)
  | _, _ => none

/-- The value that a finished state holds. -/
def State.result? : State → Option Json
  | .done v [] => some v
  | _ => none

/-- The value of a token sequence. -/
def ofTokens? (ts : List Token) : Option Json :=
  (ts.foldlM step? (.value [])).bind State.result?

/-- The value of a text. -/
def ofChars? (cs : List Char) : Option Json := (tokenize cs).bind ofTokens?

/-- The value of a text. -/
def read? (s : String) : Option Json := ofChars? s.toList

end Json
end Bindery

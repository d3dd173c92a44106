import Tilde.Layout.Token

/-!
# Token buffers

Tokens wait in a buffer until it is decided which of their newlines break. The first token and the
last one are at hand, so that the room that all of them take is known at once.

* `Buffer.toList`: the tokens in order; what the operations do to it (`toList_push`,
  `toList_ofList`);
* `Buffer.extent_eq`: the room is that of the tokens.
-/

namespace Tilde

/-- Buffered tokens: the first one, and those behind it, the last of them first. -/
inductive Buffer
  | empty
  | tokens (first : Token) (later : List Token)
  deriving DecidableEq, Repr

namespace Buffer

/-- The tokens in order. -/
def toList : Buffer → List Token
  | empty => []
  | tokens first later => first :: later.reverse

/-- Takes a token. -/
def push : Buffer → Token → Buffer
  | empty, t => tokens t []
  | tokens first later, t => tokens first (t :: later)

/-- The buffer with these tokens. -/
def ofList : List Token → Buffer
  | [] => empty
  | t :: ts => tokens t ts.reverse

/-- The first token. -/
def first? : Buffer → Option Token
  | empty => none
  | tokens first _ => some first

/-- The room that the tokens take on one line. -/
def extent : Buffer → Int
  | empty => 0
  | tokens first later => ((later.headD first).stop : Int) - first.start

@[simp] theorem toList_push (b : Buffer) (t : Token) : (b.push t).toList = b.toList ++ [t] := by
  cases b <;> simp [push, toList]

@[simp] theorem toList_ofList (ts : List Token) : (ofList ts).toList = ts := by
  cases ts <;> simp [ofList, toList]

theorem first?_eq (b : Buffer) : b.first? = b.toList.head? := by
  cases b <;> rfl

theorem extent_eq (b : Buffer) : b.extent = Token.extent b.toList := by
  cases b with
  | empty => rfl
  | tokens first later =>
    cases later <;> simp [extent, toList, Token.extent, List.getLast?_cons]

end Buffer

end Tilde

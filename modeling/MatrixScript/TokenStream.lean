import MatrixScript.Token

/-!
# Reading from a stream of tokens

A reader takes tokens from the front of a stream and yields a tree, or rejects the
stream at the token where it cannot go on.  A rejection behind the last token has
no span of its own; the reader of a whole text supplies one.
-/

namespace MatrixScript

/-- The tokens not yet read. -/
abbrev TokenStream := List (Located Token)

/-- The span of the last of some tokens, or the given span if there are none. -/
def TokenStream.lastSpan (before : Span) (tokens : TokenStream) : Span :=
  (tokens.getLast?.map Located.span).getD before

/-- Why a stream was rejected, and the span at fault unless that is the end of the text. -/
structure Rejection where
  message : String
  span? : Option Span
deriving DecidableEq, Repr

/-- A reader of tokens. -/
abbrev Reader := StateT TokenStream (Except Rejection)

namespace Reader

/-- The next token. -/
def peek? : Reader (Option Token) := fun tokens =>
  .ok (tokens.head?.map Located.item, tokens)

/-- Reject at the next token, with a message of its own. -/
def reject {α : Type} (message : String) : Reader α := fun tokens =>
  .error ⟨message, tokens.head?.map Located.span⟩

/-- Reject a stream at a given span. -/
def rejectAt {α : Type} (message : String) (span : Span) : Reader α := fun _ =>
  .error ⟨message, some span⟩

/-- Reject the next token, because something else was expected. -/
def unexpected {α : Type} (expected : String) : Reader α := fun tokens =>
  match tokens with
  | [] => .error ⟨s!"expected {expected}, found end of input", none⟩
  | token :: _ => .error ⟨s!"expected {expected}, found `{token.item.text}`", some token.span⟩

/-- Take the next token if it is the given one, and yield its span. -/
def accept? (wanted : Token) : Reader (Option Span) := fun tokens =>
  match tokens with
  | [] => .ok (none, tokens)
  | token :: rest =>
      if token.item = wanted then .ok (some token.span, rest) else .ok (none, tokens)

/-- Take the next token if it is a symbol with a meaning, and yield the meaning. -/
def acceptSymbol? {α : Type} (meaning : Symbol → Option α) : Reader (Option α) := fun tokens =>
  match tokens with
  | [] => .ok (none, tokens)
  | token :: rest =>
      match token.item with
      | .symbol mark =>
          match meaning mark with
          | some value => .ok (some value, rest)
          | none => .ok (none, tokens)
      | _ => .ok (none, tokens)

/-- Take the given token, and yield its span. -/
def expect (wanted : Token) : Reader Span := do
  match ← accept? wanted with
  | some span => pure span
  | none => unexpected ("`" ++ wanted.text ++ "`")

/-- Take an identifier. -/
def identifier : Reader (Located String) := fun tokens =>
  match tokens with
  | ⟨.identifier name, span⟩ :: rest => .ok (⟨name, span⟩, rest)
  | _ => unexpected "identifier" tokens

/-- Further items, each behind a comma; at most `fuel` of them. -/
def moreItems {α : Type} (item : Reader α) : Nat → Reader (List α)
  | 0 => pure []
  | fuel + 1 => do
      match ← accept? (.symbol .comma) with
      | none => pure []
      | some _ => do
          let head ← item
          let tail ← moreItems item fuel
          pure (head :: tail)

/-- One or more items with commas between them. -/
def items {α : Type} (item : Reader α) (fuel : Nat) : Reader (List α) := do
  let head ← item
  let tail ← moreItems item fuel
  pure (head :: tail)

/-- Items with commas between them up to a closing symbol, which is taken too. -/
def itemsUntil {α : Type} (item : Reader α) (fuel : Nat) (close : Symbol) :
    Reader (List α × Span) := do
  match ← accept? (.symbol close) with
  | some span => pure ([], span)
  | none => do
      let list ← items item fuel
      let span ← expect (.symbol close)
      pure (list, span)

/--
Run a reader behind a token with the given span, and yield beside its result the span of the
last token taken.
-/
def tracked {α : Type} (before : Span) (reader : Reader α) : Reader (α × Span) := fun tokens =>
  match reader tokens with
  | .error rejection => .error rejection
  | .ok (result, rest) =>
      let taken : TokenStream := tokens.take (tokens.length - rest.length)
      .ok ((result, taken.lastSpan before), rest)

end Reader

end MatrixScript

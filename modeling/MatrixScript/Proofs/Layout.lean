import MatrixScript.Proofs.Reader

/-!
# Readers take no notice of spans

Two texts with the same tokens differ in the spans of the tokens only.  A stream is
made bare by giving all its tokens one and the same span, and streams with the same
spelling have the same bare stream.

`Reader.Blind` compares what a reader makes of a stream with what is made of the bare
stream: the same up to spans, a rejection included.  It is kept by the steps of a
reader, so that a statement about a reader is proved along its definition.
-/

namespace MatrixScript

/-- The same item without its span. -/
def Located.bare {α : Type} (located : Located α) : Located α :=
  ⟨located.item, default⟩

/-- The same stream without the spans of its tokens. -/
def TokenStream.bare (tokens : TokenStream) : TokenStream :=
  tokens.map Located.bare

/-- The same rejection without the span at fault. -/
def Rejection.bare (rejection : Rejection) : Rejection :=
  ⟨rejection.message, rejection.span?.map fun _ => default⟩

theorem TokenStream.bare_eq (tokens : TokenStream) :
    tokens.bare = tokens.spelling.map fun token => ⟨token, default⟩ := by
  rw [bare, spelling, List.map_map]
  rfl

theorem TokenStream.bare_of_spelling {first second : TokenStream}
    (same : first.spelling = second.spelling) : first.bare = second.bare := by
  rw [bare_eq, bare_eq, same]

/-- All tokens of a bare stream have the same span. -/
theorem TokenStream.lastSpan_take_bare (tokens : TokenStream) (count : Nat) :
    TokenStream.lastSpan default (tokens.bare.take count) = default := by
  rw [lastSpan, bare, ← List.map_take, List.getLast?_map]
  cases (tokens.take count).getLast? <;> rfl

namespace Reader

variable {α β α' β' : Type}

/-- What a reader made of a stream, without spans. -/
def bareOutcome (strip : α → α') :
    Except Rejection (α × TokenStream) → Except Rejection (α' × TokenStream)
  | .ok (result, rest) => .ok (strip result, rest.bare)
  | .error rejection => .error rejection.bare

/-- On the bare stream the second reader does what the first does on the stream. -/
def Blind (strip : α → α') (reader : Reader α) (onBare : Reader α') : Prop :=
  ∀ tokens : TokenStream, onBare tokens.bare = bareOutcome strip (reader tokens)

namespace Blind

variable {strip : β → β'}

theorem pure {result : β} {bare : β'} (same : bare = strip result) :
    Blind strip (Pure.pure result) (Pure.pure bare) := by
  intro tokens
  rw [same]
  rfl

theorem unexpected (expected : String) :
    Blind strip (Reader.unexpected expected) (Reader.unexpected expected) := by
  intro tokens
  cases tokens <;> rfl

theorem reject (message : String) :
    Blind strip (Reader.reject message) (Reader.reject message) := by
  intro tokens
  cases tokens <;> rfl

theorem rejectAt (message : String) (span : Span) :
    Blind strip (Reader.rejectAt message span) (Reader.rejectAt message default) :=
  fun _ => rfl

/-- One reader after another. -/
theorem bind {stripFirst : α → α'} {first : Reader α} {onBare : Reader α'}
    {next : α → Reader β} {nextOnBare : α' → Reader β'} (before : Blind stripFirst first onBare)
    (after : ∀ value, Blind strip (next value) (nextOnBare (stripFirst value))) :
    Blind strip (first >>= next) (onBare >>= nextOnBare) := by
  intro tokens
  show (onBare tokens.bare >>= fun pair => nextOnBare pair.1 pair.2) =
    bareOutcome strip (first tokens >>= fun pair => next pair.1 pair.2)
  rw [before tokens]
  cases first tokens with
  | error rejection => rfl
  | ok pair => exact after pair.1 pair.2

theorem accept? (wanted : Token) :
    Blind (Option.map fun _ => default) (Reader.accept? wanted) (Reader.accept? wanted) := by
  intro tokens
  cases tokens with
  | nil => rfl
  | cons token rest =>
      by_cases same : token.item = wanted
      · have onBare : token.bare.item = wanted := same
        rw [TokenStream.bare, List.map_cons, Reader.accept?, Reader.accept?, if_pos onBare,
          if_pos same]
        rfl
      · have onBare : token.bare.item ≠ wanted := same
        rw [TokenStream.bare, List.map_cons, Reader.accept?, Reader.accept?, if_neg onBare,
          if_neg same]
        rfl

/-- Whether a token is taken does not depend on its span. -/
theorem bindAccept? {wanted : Token} {next : Option Span → Reader β}
    {nextOnBare : Option Span → Reader β'}
    (taken : ∀ span, Blind strip (next (some span)) (nextOnBare (some default)))
    (left : Blind strip (next none) (nextOnBare none)) :
    Blind strip (Reader.accept? wanted >>= next) (Reader.accept? wanted >>= nextOnBare) := by
  refine (accept? wanted).bind fun value => ?_
  cases value with
  | none => exact left
  | some span => exact taken span

theorem acceptSymbol? (meaning : Symbol → Option α) :
    Blind id (Reader.acceptSymbol? meaning) (Reader.acceptSymbol? meaning) := by
  intro tokens
  cases tokens with
  | nil => rfl
  | cons token rest =>
      rcases token with ⟨item, span⟩
      cases item with
      | symbol mark =>
          simp only [TokenStream.bare, List.map_cons, Located.bare, Reader.acceptSymbol?]
          cases meaning mark <;> rfl
      | _ => rfl

theorem bindSymbol? {meaning : Symbol → Option α} {next : Option α → Reader β}
    {nextOnBare : Option α → Reader β'}
    (taken : ∀ value, Blind strip (next (some value)) (nextOnBare (some value)))
    (left : Blind strip (next none) (nextOnBare none)) :
    Blind strip (Reader.acceptSymbol? meaning >>= next)
      (Reader.acceptSymbol? meaning >>= nextOnBare) := by
  refine (acceptSymbol? meaning).bind fun value => ?_
  cases value with
  | none => exact left
  | some value => exact taken value

/-- What is seen ahead does not depend on spans. -/
theorem bindPeek? {next : Option Token → Reader β} {nextOnBare : Option Token → Reader β'}
    (after : ∀ token, Blind strip (next token) (nextOnBare token)) :
    Blind strip (Reader.peek? >>= next) (Reader.peek? >>= nextOnBare) := by
  have seen : Blind id Reader.peek? Reader.peek? := by
    intro tokens
    cases tokens <;> rfl
  exact seen.bind after

theorem expect (wanted : Token) :
    Blind (fun _ => default) (Reader.expect wanted) (Reader.expect wanted) :=
  bindAccept? (fun _ => pure rfl) (unexpected _)

theorem identifier : Blind Located.bare Reader.identifier Reader.identifier := by
  intro tokens
  cases tokens with
  | nil => rfl
  | cons token rest =>
      rcases token with ⟨item, span⟩
      cases item <;> rfl

theorem tracked {reader : Reader β} {onBare : Reader β'} (blind : Blind strip reader onBare)
    (before : Span) :
    Blind (Prod.map strip fun _ => default) (Reader.tracked before reader)
      (Reader.tracked default onBare) := by
  intro tokens
  rw [Reader.tracked, Reader.tracked, blind tokens]
  cases reader tokens with
  | error rejection => rfl
  | ok pair =>
      rcases pair with ⟨result, rest⟩
      dsimp only [bareOutcome]
      rw [TokenStream.lastSpan_take_bare]
      rfl

/-! ## Lists of items -/

variable {item : Reader β} {itemOnBare : Reader β'}

theorem moreItems (blind : Blind strip item itemOnBare) (fuel : Nat) :
    Blind (List.map strip) (Reader.moreItems item fuel) (Reader.moreItems itemOnBare fuel) := by
  induction fuel with
  | zero => exact pure rfl
  | succ fuel ih =>
      rw [Reader.moreItems, Reader.moreItems]
      refine bindAccept? (fun _ => ?_) (pure rfl)
      exact blind.bind fun head => ih.bind fun tail => pure rfl

theorem items (blind : Blind strip item itemOnBare) (fuel : Nat) :
    Blind (List.map strip) (Reader.items item fuel) (Reader.items itemOnBare fuel) :=
  blind.bind fun _ => (blind.moreItems fuel).bind fun _ => pure rfl

theorem itemsUntil (blind : Blind strip item itemOnBare) (fuel : Nat) (close : Symbol) :
    Blind (Prod.map (List.map strip) fun _ => default) (Reader.itemsUntil item fuel close)
      (Reader.itemsUntil itemOnBare fuel close) := by
  refine bindAccept? (fun _ => pure rfl) ?_
  exact (blind.items fuel).bind fun _ => (expect _).bind fun _ => pure rfl

end Blind

end Reader

end MatrixScript

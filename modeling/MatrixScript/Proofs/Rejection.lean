import MatrixScript.Proofs.Reader
import MatrixScript.Proofs.Token.Errors

/-!
# Where readers reject

A reader that gives up points at the next token, or at a span that it has joined from tokens it
took.  `Reader.Blames` says that all spans a reader points at or yields fit the text, provided that
the spans of the tokens before it do.  The end of the text has no token, and is left out here.

As with the other statements about readers, the steps of a reader keep it.
-/

namespace MatrixScript

/-- All tokens have spans that fit the text. -/
def TokenStream.Fits (source : String) (tokens : TokenStream) : Prop :=
  ∀ token ∈ tokens, token.span.Fits source

namespace Reader

variable {α β : Type} {source : String}

/--
The outcome of a reader is a rejection at the end or at a span that fits, or else a result as
wanted, and only tokens that fit are left.
-/
def Settles (source : String) (wanted : α → Prop) : Except Rejection (α × TokenStream) → Prop
  | .error rejection => ∀ span ∈ rejection.span?, span.Fits source
  | .ok (result, rest) => wanted result ∧ rest.Fits source

/-- On tokens that fit, the reader blames no span that does not. -/
def Blames (source : String) (wanted : α → Prop) (reader : Reader α) : Prop :=
  ∀ tokens : TokenStream, tokens.Fits source → Settles source wanted (reader tokens)

/-- The reader blames no span that does not fit, and may yield anything. -/
def BlamesOnly (source : String) (reader : Reader α) : Prop :=
  Blames source (fun _ => True) reader

namespace Blames

variable {first : Reader α} {next : α → Reader β} {wanted : β → Prop}

theorem pure {result : β} (isWanted : wanted result) :
    Blames source wanted (Pure.pure result : Reader β) :=
  fun _ fits => ⟨isWanted, fits⟩

theorem bind {between : α → Prop} (before : Blames source between first)
    (after : ∀ value, between value → Blames source wanted (next value)) :
    Blames source wanted (first >>= next) := by
  intro tokens fits
  have settles := before tokens fits
  show Settles source wanted (first tokens >>= fun pair => next pair.1 pair.2)
  cases ran : first tokens with
  | error rejection =>
      rw [ran] at settles
      exact settles
  | ok pair =>
      rw [ran] at settles
      exact after pair.1 settles.1 pair.2 settles.2

theorem tracked {between : α → Prop} (blames : Blames source between first) (before : Span) :
    Blames source (fun result => between result.1) (Reader.tracked before first) := by
  intro tokens fits
  have settles := blames tokens fits
  rw [Reader.tracked]
  cases ran : first tokens with
  | error rejection =>
      rw [ran] at settles
      exact settles
  | ok pair =>
      rw [ran] at settles
      exact settles

theorem reject (message : String) : Blames source wanted (Reader.reject message) := by
  intro tokens fits
  cases tokens with
  | nil => rintro span ⟨⟩
  | cons token rest =>
      rintro span ⟨⟩
      exact fits token List.mem_cons_self

theorem unexpected (expected : String) : Blames source wanted (Reader.unexpected expected) := by
  intro tokens fits
  cases tokens with
  | nil => exact reject _ [] fits
  | cons token rest => exact reject _ (token :: rest) fits

theorem rejectAt (message : String) {span : Span} (spanFits : span.Fits source) :
    Blames source wanted (Reader.rejectAt message span) := by
  rintro tokens fits _ ⟨⟩
  exact spanFits

/-- Looking ahead changes nothing. -/
theorem peek? {next : Option Token → Reader β}
    (after : ∀ token, Blames source wanted (next token)) :
    Blames source wanted (Reader.peek? >>= next) :=
  fun tokens fits => after _ tokens fits

theorem accept? {token : Token} {next : Option Span → Reader β}
    (taken : ∀ span : Span, span.Fits source → Blames source wanted (next (some span)))
    (left : Blames source wanted (next none)) :
    Blames source wanted (Reader.accept? token >>= next) := by
  have whole : Blames source (fun span? : Option Span => ∀ span ∈ span?, span.Fits source)
      (Reader.accept? token) := by
    intro tokens fits
    cases tokens with
    | nil => exact ⟨by rintro span ⟨⟩, fits⟩
    | cons head rest =>
        rcases List.forall_mem_cons.mp fits with ⟨headFits, restFits⟩
        rw [Reader.accept?]
        split
        · refine ⟨?_, restFits⟩
          rintro span ⟨⟩
          exact headFits
        · exact ⟨by rintro span ⟨⟩, fits⟩
  refine whole.bind fun span? fits => ?_
  cases span? with
  | none => exact left
  | some span => exact taken span (fits span rfl)

theorem acceptSymbol? {meaning : Symbol → Option α} {next : Option α → Reader β}
    (after : ∀ value?, Blames source wanted (next value?)) :
    Blames source wanted (Reader.acceptSymbol? meaning >>= next) := by
  have whole : BlamesOnly source (Reader.acceptSymbol? meaning) := by
    intro tokens fits
    cases tokens with
    | nil => exact ⟨trivial, fits⟩
    | cons head rest =>
        have restFits := (List.forall_mem_cons.mp fits).2
        unfold Reader.acceptSymbol?
        dsimp only
        split
        · split
          · exact ⟨trivial, restFits⟩
          · exact ⟨trivial, fits⟩
        · exact ⟨trivial, fits⟩
  exact whole.bind fun value? _ => after value?

theorem expect {token : Token} {next : Span → Reader β}
    (after : ∀ span : Span, span.Fits source → Blames source wanted (next span)) :
    Blames source wanted (Reader.expect token >>= next) := by
  have whole : Blames source (fun span : Span => span.Fits source) (Reader.expect token) :=
    accept? (fun _ fits => pure fits) (unexpected _)
  exact whole.bind after

theorem identifier {next : Located String → Reader β}
    (after : ∀ name : Located String, name.span.Fits source → Blames source wanted (next name)) :
    Blames source wanted (Reader.identifier >>= next) := by
  have whole : Blames source (fun name : Located String => name.span.Fits source)
      Reader.identifier := by
    intro tokens fits
    unfold Reader.identifier
    split
    · rcases List.forall_mem_cons.mp fits with ⟨headFits, restFits⟩
      exact ⟨headFits, restFits⟩
    · exact unexpected _ _ fits
  exact whole.bind after

end Blames

/-! ## Lists -/

variable {item : Reader α}

theorem moreItems_blames (itemBlames : BlamesOnly source item) (fuel : Nat) :
    BlamesOnly source (moreItems item fuel) := by
  induction fuel with
  | zero => exact .pure trivial
  | succ fuel ih =>
      rw [moreItems]
      refine Blames.accept? (fun _ _ => ?_) (.pure trivial)
      refine itemBlames.bind fun head _ => ?_
      exact ih.bind fun tail _ => .pure trivial

theorem items_blames (itemBlames : BlamesOnly source item) (fuel : Nat) :
    BlamesOnly source (items item fuel) := by
  unfold items
  refine itemBlames.bind fun head _ => ?_
  exact (moreItems_blames itemBlames fuel).bind fun tail _ => .pure trivial

theorem itemsUntil_blames (itemBlames : BlamesOnly source item) (fuel : Nat) (close : Symbol) :
    BlamesOnly source (itemsUntil item fuel close) := by
  unfold itemsUntil
  refine Blames.accept? (fun _ _ => .pure trivial) ?_
  refine (items_blames itemBlames fuel).bind fun list _ => ?_
  exact Blames.expect fun span _ => .pure trivial

end Reader

end MatrixScript

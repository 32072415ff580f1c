import MatrixScript.Proofs.Token.LongestMatch

/-!
# Maximal munch

A text is scanned by taking the longest match off its head, again and again.  `Munches` is such a
scan as a relation, which says nothing about how matches are found.  What is taken at each step
is determined, so there is one way only to scan a text to its end or to a place where it is stuck
(`Munches.unique`).  The scanner goes this way, and says where it ends: `Token.scanFrom_outcome`.
-/

namespace MatrixScript

/-- Taking longest matches off the head of a text gives these lexemes and leaves the rest. -/
inductive Munches : List Char → List Lexeme → List Char → Prop where
  | stop (rest : List Char) : Munches rest [] rest
  | take {lexeme : Lexeme} {lexemes : List Lexeme} {more rest : List Char}
      (taken : lexeme.Taken (lexeme.chars ++ more)) (goesOn : Munches more lexemes rest) :
      Munches (lexeme.chars ++ more) (lexeme :: lexemes) rest

/-- Nothing more can be taken off the text: it is used up, or it is stuck. -/
def Ended (input : List Char) : Prop :=
  input = [] ∨ Stuck input

theorem Stuck.ne_nil {input : List Char} (stuck : Stuck input) : input ≠ [] := by
  rintro rfl
  cases stuck with
  | unmatched goesOn without => exact goesOn rfl
  | outOfRange longest isInt tooLarge =>
      exact longest.ne_nil (List.prefix_nil.mp longest.isPrefix)

namespace Lexeme.Taken

variable {input : List Char} {lexeme other : Lexeme}

theorem unique (taken : lexeme.Taken input) (otherTaken : other.Taken input) : lexeme = other := by
  have chars := taken.longest.unique otherTaken.longest
  rcases taken.denotes with ⟨kind, claims, denotes⟩
  rcases otherTaken.denotes with ⟨otherKind, otherClaims, otherDenotes⟩
  rw [← chars] at otherClaims otherDenotes
  cases claims.unique otherClaims
  have token := denotes.unique otherDenotes
  cases lexeme
  cases other
  cases chars
  cases token
  rfl

/-- A whole number that is taken is in range. -/
theorem natural_lt (taken : lexeme.Taken input)
    (isInt : lexeme.chars ∈ LexemeKind.int.pattern) :
    Decimal.natural lexeme.chars < Nat.pow 2 63 := by
  rcases taken.denotes with ⟨kind, claims, denotes⟩
  cases claims.unique (.of_mem isInt (by rintro ⟨⟩))
  generalize lexeme.chars = digits, lexeme.token? = token? at denotes
  cases denotes with
  | @int digits value isValue =>
      have bound := value.toInt_lt
      rw [isValue] at bound
      exact Int.ofNat_lt.mp bound

theorem not_ended (taken : lexeme.Taken input) : ¬ Ended input := by
  rintro (rfl | ⟨goesOn, without⟩ | ⟨longest, isInt, tooLarge⟩)
  · exact taken.longest.ne_nil (List.prefix_nil.mp taken.longest.isPrefix)
  · rcases taken.longest.isMatch with ⟨kind, isMatch⟩
    exact without kind lexeme.chars isMatch taken.longest.isPrefix
  · cases longest.unique taken.longest
    exact absurd (taken.natural_lt isInt) (Nat.not_lt.mpr (Nat.le_of_pred_lt tooLarge))

end Lexeme.Taken

/-- A text is scanned to an end in one way only. -/
theorem Munches.unique {input rest otherRest : List Char} {lexemes otherLexemes : List Lexeme}
    (munches : Munches input lexemes rest) (ended : Ended rest)
    (otherMunches : Munches input otherLexemes otherRest) (otherEnded : Ended otherRest) :
    lexemes = otherLexemes ∧ rest = otherRest := by
  induction munches generalizing otherLexemes with
  | stop rest =>
      cases otherMunches with
      | stop => exact ⟨rfl, rfl⟩
      | take taken goesOn => exact absurd ended taken.not_ended
  | @take lexeme lexemes more rest taken goesOn ih =>
      -- The other scan cannot have ended here, and takes the same lexeme.
      generalize whole : lexeme.chars ++ more = input at otherMunches taken
      cases otherMunches with
      | stop => exact absurd otherEnded taken.not_ended
      | take otherTaken otherGoesOn =>
          cases taken.unique otherTaken
          cases List.append_cancel_left whole
          rcases ih ended otherGoesOn with ⟨rfl, rfl⟩
          exact ⟨rfl, rfl⟩

/-- The tokens of lexemes that stand one behind the other from a position on. -/
def Lexeme.locatedAll (position : Position) : List Lexeme → TokenStream
  | [] => []
  | lexeme :: lexemes =>
      lexeme.located position ++ locatedAll (position.advance lexeme.chars) lexemes

/--
What scanning a text from a position on leads to: the tokens of all lexemes if the end is reached,
and otherwise a complaint at the place where the text is stuck.
-/
inductive Outcome (position : Position) (input : List Char) :
    Except SourceError TokenStream → Prop where
  | reached {lexemes : List Lexeme} (munches : Munches input lexemes []) :
      Outcome position input (.ok (Lexeme.locatedAll position lexemes))
  | stopped {lexemes : List Lexeme} {rest : List Char} {message : String} {span : Span}
      (munches : Munches input lexemes rest) (stuck : Stuck rest)
      (starts : span.start =
        position.offset + Text.byteLength (lexemes.flatMap Lexeme.chars)) :
      Outcome position input (.error (.lexical message span))

namespace Outcome

variable {position : Position} {input : List Char} {result : Except SourceError TokenStream}

/-- A lexeme that is taken adds its token, if the rest of the text gives tokens. -/
theorem take {lexeme : Lexeme} {more : List Char} (taken : lexeme.Taken (lexeme.chars ++ more))
    (outcome : Outcome (position.advance lexeme.chars) more result) :
    Outcome position (lexeme.chars ++ more) (result.map (lexeme.located position ++ ·)) := by
  cases outcome with
  | reached munches => exact .reached (.take taken munches)
  | stopped munches stuck starts =>
      refine .stopped (.take taken munches) stuck ?_
      rw [starts, List.flatMap_cons, Text.byteLength_append, ← Nat.add_assoc]
      rfl

theorem eq_ok_iff (outcome : Outcome position input result) (tokens : TokenStream) :
    result = .ok tokens ↔
      ∃ lexemes, Munches input lexemes [] ∧ tokens = Lexeme.locatedAll position lexemes := by
  constructor
  · rintro rfl
    cases outcome with
    | @reached lexemes munches => exact ⟨lexemes, munches, rfl⟩
  · rintro ⟨lexemes, munches, rfl⟩
    cases outcome with
    | reached otherMunches => rw [(munches.unique (.inl rfl) otherMunches (.inl rfl)).1]
    | stopped otherMunches stuck _ =>
        cases (munches.unique (.inl rfl) otherMunches (.inr stuck)).2
        exact absurd rfl stuck.ne_nil

theorem starts_iff (outcome : Outcome position input result) (offset : Nat) :
    (∃ message span, result = .error (.lexical message span) ∧ span.start = offset) ↔
      ∃ lexemes rest, Munches input lexemes rest ∧ Stuck rest ∧
        offset = position.offset + Text.byteLength (lexemes.flatMap Lexeme.chars) := by
  constructor
  · rintro ⟨message, span, rfl, rfl⟩
    cases outcome with
    | @stopped lexemes rest _ _ munches stuck starts =>
        exact ⟨lexemes, rest, munches, stuck, starts⟩
  · rintro ⟨lexemes, rest, munches, stuck, rfl⟩
    cases outcome with
    | reached otherMunches =>
        cases (munches.unique (.inr stuck) otherMunches (.inl rfl)).2
        exact absurd rfl stuck.ne_nil
    | @stopped _ _ message span otherMunches otherStuck starts =>
        rcases munches.unique (.inr stuck) otherMunches (.inr otherStuck) with ⟨rfl, _⟩
        exact ⟨message, span, rfl, starts⟩

theorem ok_or_lexical (outcome : Outcome position input result) :
    (∃ tokens, result = .ok tokens) ∨
      ∃ message span, result = .error (.lexical message span) := by
  cases outcome with
  | reached munches => exact .inl ⟨_, rfl⟩
  | stopped munches stuck starts => exact .inr ⟨_, _, rfl⟩

end Outcome

namespace Token

/-- The scanner takes longest matches, and ends where nothing more can be taken. -/
theorem scanFrom_outcome (position : Position) (input : List Char) :
    Outcome position input (scanFrom position 0 input) := by
  induction length : input.length using Nat.strongRecOn generalizing position input with
  | ind size ih =>
      cases input with
      | nil => exact .reached (.stop [])
      | cons first rest =>
          cases reads : Lexeme.read first rest with
          | error chars =>
              rw [scanFrom, reads]
              exact .stopped (.stop _) (Lexeme.stuck_of_read reads) rfl
          | ok lexeme =>
              have taken := Lexeme.taken_of_read reads
              rcases taken.longest.isPrefix with ⟨more, splits⟩
              have shorter : more.length < size := by
                have positive := List.length_pos_iff.mpr taken.longest.ne_nil
                rw [← length, ← splits, List.length_append]
                omega
              rw [scanFrom_of_read reads splits.symm]
              rw [← splits] at taken ⊢
              exact .take taken (ih more.length shorter _ more rfl)

/--
Scanning a text takes the longest match off its head, again and again.  It gives the tokens of
the matches if it reaches the end of the text, and an error at the place where it is stuck
otherwise.
-/
theorem scan_munches (source : String) :
    (∀ tokens, scan source = .ok tokens ↔
      ∃ lexemes, Munches source.toList lexemes [] ∧
        tokens = Lexeme.locatedAll .origin lexemes) ∧
    (∀ offset, (∃ message span, scan source = .error (.lexical message span) ∧
        span.start = offset) ↔
      ∃ lexemes rest, Munches source.toList lexemes rest ∧ Stuck rest ∧
        offset = Text.byteLength (lexemes.flatMap Lexeme.chars)) ∧
    ((∃ tokens, scan source = .ok tokens) ∨
      ∃ message span, scan source = .error (.lexical message span)) := by
  have outcome : Outcome .origin source.toList (scan source) := by
    rw [scan_eq]
    exact scanFrom_outcome _ _
  refine ⟨outcome.eq_ok_iff, fun offset => ?_, outcome.ok_or_lexical⟩
  have starts := outcome.starts_iff offset
  simp only [Position.origin, Nat.zero_add] at starts
  exact starts

end Token

end MatrixScript

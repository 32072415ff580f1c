import MatrixScript.Proofs.Token.Scanner

/-!
# Where tokens stand

The span of a token is that of the piece of text it was read from.  So the tokens of a text
take up some of it each, and follow one another: `TokenStream.Ordered`.  The extent of a
run of such tokens reaches from the first to the last of them, and joining the extents of
two runs gives the extent of all that lies between (`TokenStream.Ordered.extent?_merge`).
-/

namespace MatrixScript

/-! ## Bytes of a text -/

namespace Text

theorem byteLength_eq_length (chars : List Char) :
    byteLength chars = (chars.flatMap String.utf8EncodeChar).length := by
  induction chars with
  | nil => rfl
  | cons head tail ih =>
      rw [List.flatMap_cons, List.length_append, String.length_utf8EncodeChar, ← ih]
      rfl

theorem byteLength_pos {chars : List Char} (nonempty : chars ≠ []) : 0 < byteLength chars := by
  cases chars with
  | nil => exact absurd rfl nonempty
  | cons head tail => exact Nat.add_pos_left head.utf8Size_pos _

end Text

theorem Position.spanOf_advance_origin (before piece : List Char) :
    (origin.advance before).spanOf piece =
      ⟨Text.byteLength before, Text.byteLength (before ++ piece), 1 + before.count '\n'⟩ := by
  rw [Text.byteLength_append]
  simp only [spanOf, advance, origin, Nat.zero_add]

/-- The number of line breaks among the first bytes of a text. -/
def lineBreaksBefore (source : String) (offset : Nat) : Nat :=
  (source.toByteArray.data.toList.take offset).count 10

theorem bytes_eq_flatMap (source : String) :
    source.toByteArray.data.toList = source.toList.flatMap String.utf8EncodeChar := by
  rw [← String.utf8Encode_toList, List.utf8Encode, List.data_toByteArray]

theorem Text.byteLength_toList (source : String) :
    byteLength source.toList = source.utf8ByteSize := by
  rw [byteLength_eq_length, ← bytes_eq_flatMap]
  rfl

/-- The byte of a line break is part of no other character. -/
theorem count_utf8EncodeChar (char : Char) :
    (String.utf8EncodeChar char).count 10 = if char = '\n' then 1 else 0 := by
  have byte_iff {value : Nat} (small : value < 256) : 10 = UInt8.ofNat value ↔ value = 10 := by
    rw [← UInt8.toNat_inj, UInt8.toNat_ofNat_of_lt' small]
    exact eq_comm
  have high {value : Nat} (large : 128 ≤ value) (small : value < 256) :
      10 ≠ UInt8.ofNat value := by
    rw [ne_eq, byte_iff small]
    omega
  have later (value : Nat) : 10 ≠ UInt8.ofNat (value % 64 + 128) :=
    high (by omega) (by omega)
  have char_iff : char = '\n' ↔ char.val.toNat = 10 := by
    rw [← Char.val_inj, ← UInt32.toNat_inj]
    rfl
  simp only [char_iff, String.utf8EncodeChar]
  generalize char.val.toNat = value
  split
  · have same : UInt8.ofNat value = 10 ↔ value = 10 := eq_comm.trans (byte_iff (by omega))
    simp only [List.count_singleton, beq_iff_eq, same]
  · have notBreak : ¬ value = 10 := by omega
    rw [if_neg notBreak, List.count_eq_zero]
    -- Every byte of a longer encoding is at least 128.
    split
    · simp only [List.mem_cons, List.not_mem_nil, or_false, not_or]
      exact ⟨high (by omega) (by omega), later _⟩
    · split
      · simp only [List.mem_cons, List.not_mem_nil, or_false, not_or]
        exact ⟨high (by omega) (by omega), later _, later _⟩
      · simp only [List.mem_cons, List.not_mem_nil, or_false, not_or]
        exact ⟨high (by omega) (by omega), later _, later _, later _⟩

theorem count_bytes (chars : List Char) :
    (chars.flatMap String.utf8EncodeChar).count 10 = chars.count '\n' := by
  induction chars with
  | nil => rfl
  | cons head tail ih =>
      rw [List.flatMap_cons, List.count_append, ih, count_utf8EncodeChar, List.count_cons,
        Nat.add_comm]
      simp only [beq_iff_eq]

theorem lineBreaksBefore_byteLength {source : String} {before after : List Char}
    (splits : source.toList = before ++ after) :
    lineBreaksBefore source (Text.byteLength before) = before.count '\n' := by
  rw [lineBreaksBefore, bytes_eq_flatMap, splits, List.flatMap_append,
    Text.byteLength_eq_length, List.take_left, count_bytes]

/-! ## The place of a token -/

namespace Token

/-- The token is read off the text at a position, and its span is the place of what was read. -/
def StandsIn (position : Position) (chars : List Char) (token : Located Token) : Prop :=
  ∃ before first rest lexeme, chars = before ++ first :: rest ∧
    Lexeme.read first rest = .ok lexeme ∧ lexeme.token? = some token.item ∧
    token.span = (position.advance before).spanOf lexeme.chars

namespace StandsIn

variable {position : Position} {chars : List Char} {token : Located Token}

/-- What stands behind a piece of the text stands in the text. -/
theorem behind {piece : List Char} (stands : StandsIn (position.advance piece) chars token) :
    StandsIn position (piece ++ chars) token := by
  rcases stands with ⟨before, first, rest, lexeme, rfl, reads, isToken, placed⟩
  refine ⟨piece ++ before, first, rest, lexeme, ?_, reads, isToken, ?_⟩
  · rw [List.append_assoc]
  · rw [Position.advance_append, placed]

theorem start_ge (stands : StandsIn position chars token) :
    position.offset ≤ token.span.start := by
  rcases stands with ⟨before, first, rest, lexeme, rfl, reads, isToken, placed⟩
  rw [placed]
  exact Nat.le_add_right _ _

theorem start_lt_stop (stands : StandsIn position chars token) :
    token.span.start < token.span.stop := by
  rcases stands with ⟨before, first, rest, lexeme, rfl, reads, isToken, placed⟩
  rw [placed]
  exact Nat.lt_add_of_pos_right (Text.byteLength_pos (Lexeme.read_isPrefix reads).2)

/-- In a whole text the span of a token gives the place of the piece it was read from. -/
theorem exists_piece {source : String} (stands : StandsIn .origin source.toList token) :
    ∃ before after first rest lexeme, source.toList = before ++ lexeme.chars ++ after ∧
      Lexeme.read first rest = .ok lexeme ∧ lexeme.token? = some token.item ∧
      token.span = ⟨Text.byteLength before, Text.byteLength (before ++ lexeme.chars),
        1 + before.count '\n'⟩ := by
  rcases stands with ⟨before, first, rest, lexeme, splits, reads, isToken, placed⟩
  rcases (Lexeme.read_isPrefix reads).1 with ⟨after, continues⟩
  refine ⟨before, after, first, rest, lexeme, ?_, reads, isToken, ?_⟩
  · rw [splits, ← continues, List.append_assoc]
  · rw [placed, Position.spanOf_advance_origin]

theorem stop_le {source : String} (stands : StandsIn .origin source.toList token) :
    token.span.stop ≤ source.utf8ByteSize := by
  rcases stands.exists_piece with ⟨before, after, _, _, lexeme, splits, _, _, placed⟩
  rw [placed, ← Text.byteLength_toList, splits, Text.byteLength_append _ after]
  exact Nat.le_add_right _ _

theorem line_eq {source : String} (stands : StandsIn .origin source.toList token) :
    token.span.line = 1 + lineBreaksBefore source token.span.start := by
  rcases stands.exists_piece with ⟨before, after, _, _, lexeme, splits, _, _, placed⟩
  rw [List.append_assoc] at splits
  rw [placed, lineBreaksBefore_byteLength splits]

end StandsIn

variable {position : Position} {chars : List Char} {tokens : TokenStream}

theorem Cuts.standsIn (cuts : Cuts position chars tokens) :
    ∀ token ∈ tokens, StandsIn position chars token := by
  induction cuts with
  | nil position => exact fun token member => absurd member List.not_mem_nil
  | @cons position first rest more lexeme tokens reads splits cuts ih =>
      intro token member
      rcases List.mem_append.mp member with here | later
      · rw [Lexeme.located, List.mem_map] at here
        rcases here with ⟨item, isToken, rfl⟩
        refine ⟨[], first, rest, lexeme, rfl, reads, Option.mem_toList.mp isToken, ?_⟩
        rw [Position.advance_nil]
      · rw [splits]
        exact (ih token later).behind

end Token

/-! ## Runs of tokens -/

theorem Span.merge_of_le {first second : Span} (starts : first.start ≤ second.start)
    (stops : first.stop ≤ second.stop) :
    first.merge second = ⟨first.start, second.stop, first.line⟩ := by
  rw [merge, Nat.min_eq_left starts, Nat.max_eq_right stops, if_neg (Nat.not_lt.mpr starts)]

namespace TokenStream

/-- Every token takes up some of the text, and ends before the next one begins. -/
structure Ordered (tokens : TokenStream) : Prop where
  nonempty : ∀ token ∈ tokens, token.span.start < token.span.stop
  apart : tokens.Pairwise fun first second => first.span.stop ≤ second.span.start

/-- From the start of the first token to the end of the last one. -/
def extent? (tokens : TokenStream) : Option Span :=
  match tokens.head?, tokens.getLast? with
  | some first, some last => some ⟨first.span.start, last.span.stop, first.span.line⟩
  | _, _ => none

theorem extent?_eq_some_iff {tokens : TokenStream} {span : Span} :
    extent? tokens = some span ↔ ∃ first last, tokens.head? = some first ∧
      tokens.getLast? = some last ∧
      span = ⟨first.span.start, last.span.stop, first.span.line⟩ := by
  unfold extent?
  split
  · rename_i first last begins ends
    simp [begins, ends, eq_comm]
  · rename_i missing
    constructor
    · rintro ⟨⟩
    · rintro ⟨first, last, begins, ends, _⟩
      exact absurd ends (missing first last begins)

@[simp]
theorem extent?_singleton (token : Located Token) : extent? [token] = some token.span := rfl

theorem exists_starts {tokens : TokenStream} {span : Span} (reaches : extent? tokens = some span) :
    ∃ token ∈ tokens, token.span.start = span.start ∧ token.span.line = span.line := by
  rcases extent?_eq_some_iff.mp reaches with ⟨first, last, isFirst, isLast, rfl⟩
  exact ⟨first, List.mem_of_head? isFirst, rfl, rfl⟩

theorem exists_stops {tokens : TokenStream} {span : Span} (reaches : extent? tokens = some span) :
    ∃ token ∈ tokens, token.span.stop = span.stop := by
  rcases extent?_eq_some_iff.mp reaches with ⟨first, last, isFirst, isLast, rfl⟩
  exact ⟨last, List.mem_of_getLast? isLast, rfl⟩

namespace Ordered

variable {tokens front back : TokenStream}

theorem nil : Ordered [] :=
  ⟨fun _ member => absurd member List.not_mem_nil, .nil⟩

theorem of_sublist {part : TokenStream} (ordered : Ordered tokens) (sub : part.Sublist tokens) :
    Ordered part :=
  ⟨fun token member => ordered.nonempty token (sub.subset member), ordered.apart.sublist sub⟩

theorem left (ordered : Ordered (front ++ back)) : Ordered front :=
  ordered.of_sublist (List.sublist_append_left front back)

theorem right (ordered : Ordered (front ++ back)) : Ordered back :=
  ordered.of_sublist (List.sublist_append_right front back)

theorem tail {token : Located Token} (ordered : Ordered (token :: tokens)) : Ordered tokens :=
  ordered.of_sublist (List.sublist_cons_self token tokens)

theorem bounds {span : Span} (ordered : Ordered tokens) (reaches : extent? tokens = some span) :
    ∀ token ∈ tokens, span.start ≤ token.span.start ∧ token.span.stop ≤ span.stop := by
  rcases extent?_eq_some_iff.mp reaches with ⟨first, last, isFirst, isLast, rfl⟩
  intro token member
  constructor
  · rcases List.head?_eq_some_iff.mp isFirst with ⟨rest, rfl⟩
    rcases List.mem_cons.mp member with rfl | later
    · exact Nat.le_refl _
    · exact Nat.le_trans (Nat.le_of_lt (ordered.nonempty first List.mem_cons_self))
        ((List.pairwise_cons.mp ordered.apart).1 token later)
  · rcases List.getLast?_eq_some_iff.mp isLast with ⟨init, rfl⟩
    rcases List.mem_append.mp member with earlier | isLast
    · exact Nat.le_trans
        ((List.pairwise_append.mp ordered.apart).2.2 token earlier last List.mem_cons_self)
        (Nat.le_of_lt (ordered.nonempty last (List.mem_append_right init List.mem_cons_self)))
    · cases List.mem_singleton.mp isLast
      exact Nat.le_refl _

theorem extent_pos {span : Span} (ordered : Ordered tokens) (reaches : extent? tokens = some span) :
    span.start < span.stop := by
  rcases exists_starts reaches with ⟨token, member, starts, _⟩
  rw [← starts]
  exact Nat.lt_of_lt_of_le (ordered.nonempty token member) (ordered.bounds reaches token member).2

/-- The extent of a run of tokens lies in that of a longer run. -/
theorem extent_within {inner outer : Span} (ordered : Ordered tokens)
    (whole : extent? tokens = some outer) {part : TokenStream} (sub : part ⊆ tokens)
    (reaches : extent? part = some inner) :
    outer.start ≤ inner.start ∧ inner.stop ≤ outer.stop := by
  rcases exists_starts reaches with ⟨first, isFirst, starts, _⟩
  rcases exists_stops reaches with ⟨last, isLast, stops⟩
  rw [← starts, ← stops]
  exact ⟨(ordered.bounds whole first (sub isFirst)).1, (ordered.bounds whole last (sub isLast)).2⟩

/-- The extent of earlier tokens ends before that of later ones begins. -/
theorem extents_apart {first second : Span} (ordered : Ordered (front ++ back))
    (begins : extent? front = some first) (ends : extent? back = some second) :
    first.stop ≤ second.start := by
  rcases exists_stops begins with ⟨last, isLast, stops⟩
  rcases exists_starts ends with ⟨head, isHead, starts, _⟩
  rw [← stops, ← starts]
  exact (List.pairwise_append.mp ordered.apart).2.2 last isLast head isHead

/-- The extents of the first and the last tokens join to that of all tokens between. -/
theorem extent?_merge {first second : Span} (front middle : TokenStream)
    (ordered : Ordered (front ++ (middle ++ back))) (begins : extent? front = some first)
    (ends : extent? back = some second) :
    extent? (front ++ (middle ++ back)) = some (first.merge second) := by
  have shorter : Ordered (front ++ back) :=
    ordered.of_sublist ((List.sublist_append_right middle back).append_left front)
  have apart : first.stop ≤ second.start := shorter.extents_apart begins ends
  have firstPositive : first.start < first.stop := ordered.left.extent_pos begins
  have secondPositive : second.start < second.stop := ordered.right.right.extent_pos ends
  rw [Span.merge_of_le (by omega) (by omega), extent?_eq_some_iff]
  rcases extent?_eq_some_iff.mp begins with ⟨head, _, isHead, _, rfl⟩
  rcases extent?_eq_some_iff.mp ends with ⟨_, last, _, isLast, rfl⟩
  refine ⟨head, last, ?_, ?_, rfl⟩
  · rw [List.head?_append, isHead]
    rfl
  · rw [List.getLast?_append, List.getLast?_append, isLast]
    rfl

theorem extent?_enclosed {first last : Located Token} (middle : TokenStream)
    (ordered : Ordered (first :: (middle ++ [last]))) :
    extent? (first :: (middle ++ [last])) = some (first.span.merge last.span) :=
  ordered.extent?_merge [first] middle (extent?_singleton first) (extent?_singleton last)

/-- Tokens reach from the first of them to the last, be it the same. -/
theorem extent?_lastSpan {first : Located Token} {others : TokenStream}
    (ordered : Ordered (first :: others)) :
    extent? (first :: others) = some (first.span.merge (others.lastSpan first.span)) := by
  rcases others.eq_nil_or_concat with rfl | ⟨middle, last, rfl⟩
  · rw [extent?_singleton]
    exact congrArg some first.span.merge_self.symm
  · rw [List.concat_eq_append] at ordered ⊢
    rw [lastSpan, List.getLast?_concat]
    exact ordered.extent?_enclosed middle

end Ordered

end TokenStream

theorem Token.Cuts.ordered {position : Position} {chars : List Char} {tokens : TokenStream}
    (cuts : Cuts position chars tokens) : TokenStream.Ordered tokens := by
  refine ⟨fun token member => (cuts.standsIn token member).start_lt_stop, ?_⟩
  induction cuts with
  | nil position => exact .nil
  | @cons position first rest more lexeme tokens reads splits cuts ih =>
      refine List.pairwise_append.mpr ⟨?_, ih, ?_⟩
      · rcases lexeme with ⟨piece, _ | token⟩
        · exact .nil
        · exact List.pairwise_singleton _ _
      · intro token here other later
        rw [Lexeme.located, List.mem_map] at here
        rcases here with ⟨item, _, rfl⟩
        exact (cuts.standsIn other later).start_ge

end MatrixScript

import Mathlib.Data.List.TakeWhile
import MatrixScript.Proofs.Token.Positions

/-!
# Tokens and the text between them

The tokens of a text take up pieces of it, and what lies before, between and behind these
pieces says nothing: it is `Idle`, made of blanks and of comments that run to the end of their
line.  `TokenStream.gaps` are these stretches as byte offsets, and `TokenStream.Tiles` says
that tokens and gaps together make up the text.
-/

namespace MatrixScript

/-! ## Text without tokens -/

/-- A run of characters is followed by none of its kind. -/
theorem head?_of_takeWhile {part : Char → Bool} {rest more : List Char}
    (splits : rest = rest.takeWhile part ++ more) : ∀ next ∈ more.head?, part next = false := by
  induction rest with
  | nil =>
      cases (List.append_eq_nil_iff.mp splits.symm).2
      rintro next ⟨⟩
  | cons first rest ih =>
      cases goesOn : part first with
      | true =>
          rw [List.takeWhile_cons_of_pos goesOn, List.cons_append] at splits
          exact ih (List.cons.inj splits).2
      | false =>
          rw [List.takeWhile_cons_of_neg (by simp [goesOn]), List.nil_append] at splits
          cases splits
          rintro next ⟨⟩
          exact goesOn

/-- Text that holds no token, in front of other text: blanks, and comments to the end of a line. -/
inductive Idle : List Char → List Char → Prop where
  | nil (after : List Char) : Idle [] after
  | blank {char : Char} {idle after : List Char} (isBlank : char ∈ [' ', '\t', '\n', '\r'])
      (goesOn : Idle idle after) : Idle (char :: idle) after
  | comment {body idle after : List Char} (oneLine : '\n' ∉ body)
      (lineEnds : ∀ next ∈ (idle ++ after).head?, next = '\n') (goesOn : Idle idle after) :
      Idle ('#' :: (body ++ idle)) after

namespace Idle

theorem append {first second after : List Char} (begins : Idle first (second ++ after))
    (goesOn : Idle second after) : Idle (first ++ second) after := by
  generalize behind : second ++ after = whole at begins
  induction begins with
  | nil whole => exact goesOn
  | blank isBlank _ ih => exact .blank isBlank (ih behind)
  | @comment body idle whole oneLine lineEnds _ ih =>
      rw [List.cons_append, List.append_assoc]
      refine .comment oneLine ?_ (ih behind)
      rw [List.append_assoc, behind]
      exact lineEnds

theorem blanks {chars : List Char} (after : List Char)
    (all : ∀ char ∈ chars, Lexeme.isSpace char = true) : Idle chars after := by
  induction chars with
  | nil => exact .nil after
  | cons first rest ih =>
      rcases List.forall_mem_cons.mp all with ⟨isBlank, others⟩
      exact .blank (Lexeme.isSpace_iff.mp isBlank) (ih others)

/-- A lexeme without a token is idle text. -/
theorem of_read {first : Char} {rest more : List Char} {lexeme : Lexeme}
    (reads : Lexeme.read first rest = .ok lexeme) (silent : lexeme.token? = none)
    (splits : first :: rest = lexeme.chars ++ more) : Idle lexeme.chars more := by
  revert reads
  fun_cases Lexeme.read first rest with
  | case1 isBlank =>
      rintro ⟨⟩
      refine blanks more fun char member => ?_
      rcases List.mem_cons.mp member with rfl | later
      · exact isBlank
      · exact List.mem_takeWhile_imp later
  | case2 _ isHash =>
      rintro ⟨⟩
      subst isHash
      have oneLine : '\n' ∉ rest.takeWhile (· ≠ '\n') := fun member => by
        have different := List.mem_takeWhile_imp member
        exact absurd rfl (of_decide_eq_true different)
      have lineEnds : ∀ next ∈ ([] ++ more).head?, next = '\n' := fun next isNext =>
        not_not.mp (of_decide_eq_false (head?_of_takeWhile (List.cons.inj splits).2 next isNext))
      have idle := comment oneLine lineEnds (nil more)
      rwa [List.append_nil] at idle
  -- Every other lexeme has a token.
  | case3 =>
      rintro ⟨⟩
      cases silent
  | case4 =>
      rintro ⟨⟩
      cases silent
  | case5 => rintro ⟨⟩
  | case6 =>
      rintro ⟨⟩
      cases silent
  | case7 => rintro ⟨⟩
  | case8 =>
      rintro ⟨⟩
      cases silent
  | case9 => rintro ⟨⟩

end Idle

/-! ## The stretches between tokens -/

/-- The bytes of a text from one offset to another are idle. -/
def IdleBetween (source : String) (start stop : Nat) : Prop :=
  ∃ before idle after : String, source = before ++ idle ++ after ∧ before.utf8ByteSize = start ∧
    (before ++ idle).utf8ByteSize = stop ∧ Idle idle.toList after.toList

/--
The stretches of a text from an offset on that the tokens leave out: before the first token,
between two of them, and behind the last one.
-/
def TokenStream.gaps (size start : Nat) : TokenStream → List (Nat × Nat)
  | [] => [(start, size)]
  | token :: tokens => (start, token.span.start) :: gaps size token.span.stop tokens

theorem Text.utf8ByteSize_ofList (chars : List Char) :
    (String.ofList chars).utf8ByteSize = byteLength chars := by
  rw [← byteLength_toList, String.toList_ofList]

theorem ofList_eq_append {source : String} {before after : List Char}
    (splits : source.toList = before ++ after) :
    source = String.ofList before ++ String.ofList after := by
  rw [← String.ofList_append, ← splits, String.ofList_toList]

/-- The text can be cut behind any of its characters. -/
theorem Text.isValid_byteLength {source : String} {before after : List Char}
    (splits : source.toList = before ++ after) :
    String.Pos.Raw.IsValid source ⟨byteLength before⟩ := by
  refine String.Pos.Raw.isValid_iff_exists_append.mpr
    ⟨String.ofList before, String.ofList after, ofList_eq_append splits, ?_⟩
  rw [← utf8ByteSize_ofList]
  rfl

theorem IdleBetween.of_splits {source : String} {before idle after : List Char}
    (splits : source.toList = before ++ idle ++ after) (isIdle : Idle idle after) :
    IdleBetween source (Text.byteLength before) (Text.byteLength (before ++ idle)) := by
  refine ⟨String.ofList before, String.ofList idle, String.ofList after, ?_, ?_, ?_, ?_⟩
  · rw [ofList_eq_append splits, String.ofList_append]
  · exact Text.utf8ByteSize_ofList before
  · rw [← String.ofList_append, Text.utf8ByteSize_ofList]
  · rwa [String.toList_ofList, String.toList_ofList]

namespace Token

/-- Whatever idle text the cutting has passed since the last token is part of the next gap. -/
theorem Cuts.idleBetween {source : String} {position : Position} {chars : List Char}
    {tokens : TokenStream} (cuts : Cuts position chars tokens) (before passed : List Char)
    (splits : source.toList = before ++ passed ++ chars)
    (reached : position.offset = Text.byteLength (before ++ passed))
    (idle : Idle passed chars) :
    ∀ gap ∈ tokens.gaps source.utf8ByteSize (Text.byteLength before),
      IdleBetween source gap.1 gap.2 := by
  induction cuts generalizing before passed with
  | nil position =>
      intro gap member
      cases List.mem_singleton.mp member
      rw [← Text.byteLength_toList, splits, List.append_nil]
      exact .of_splits splits idle
  | @cons position first rest more lexeme tokens reads continues cuts ih =>
      have reached' : (position.advance lexeme.chars).offset =
          Text.byteLength (before ++ passed ++ lexeme.chars) := by
        rw [Text.byteLength_append, ← reached]
        rfl
      rw [continues] at splits idle
      cases token : lexeme.token? with
      | none =>
          have located : lexeme.located position = [] := by rw [Lexeme.located, token]; rfl
          rw [located, List.nil_append]
          refine ih before (passed ++ lexeme.chars) ?_ ?_ ?_
          · rw [splits, List.append_assoc, List.append_assoc, List.append_assoc]
          · rw [reached', List.append_assoc]
          · exact idle.append (.of_read reads token continues)
      | some item =>
          have located : lexeme.located position = [⟨item, position.spanOf lexeme.chars⟩] := by
            rw [Lexeme.located, token]
            rfl
          rw [located, List.singleton_append]
          intro gap member
          rcases List.mem_cons.mp member with rfl | later
          · rw [Position.spanOf, reached]
            exact .of_splits splits idle
          · refine ih (before ++ passed ++ lexeme.chars) [] ?_ ?_ (.nil more) gap ?_
            · rw [splits, List.append_nil, List.append_assoc (before ++ passed)]
            · rw [reached', List.append_nil]
            · rwa [← reached']

/-- The place of a token begins and ends between two characters. -/
theorem StandsIn.isValid {source : String} {token : Located Token}
    (stands : StandsIn .origin source.toList token) :
    String.Pos.Raw.IsValid source ⟨token.span.start⟩ ∧
      String.Pos.Raw.IsValid source ⟨token.span.stop⟩ := by
  rcases stands.exists_piece with ⟨before, after, _, _, lexeme, splits, _, _, placed⟩
  rw [placed]
  refine ⟨?_, Text.isValid_byteLength splits⟩
  rw [List.append_assoc] at splits
  exact Text.isValid_byteLength splits

end Token

/--
The tokens and the gaps between them make up the text.  Every token takes up some bytes, whole
characters of the text; the tokens follow one another; what they leave out is idle; and
each knows its line, which is one more than the line breaks in front of it.
-/
structure TokenStream.Tiles (source : String) (tokens : TokenStream) : Prop where
  nonempty : ∀ token ∈ tokens, token.span.start < token.span.stop
  increasing : tokens.Pairwise fun first second => first.span.start < second.span.start
  apart : tokens.Pairwise fun first second => first.span.stop ≤ second.span.start
  inside : ∀ token ∈ tokens, token.span.stop ≤ source.utf8ByteSize
  boundaries : ∀ token ∈ tokens, String.Pos.Raw.IsValid source ⟨token.span.start⟩ ∧
    String.Pos.Raw.IsValid source ⟨token.span.stop⟩
  idle : ∀ gap ∈ tokens.gaps source.utf8ByteSize 0, IdleBetween source gap.1 gap.2
  line : ∀ token ∈ tokens, token.span.line = 1 + lineBreaksBefore source token.span.start

/-- The tokens of a text tile it. -/
theorem Token.scan_tiles {source : String} {tokens : TokenStream}
    (scans : scan source = .ok tokens) : TokenStream.Tiles source tokens := by
  have cuts := scan_eq_ok_iff.mp scans
  have stands := cuts.standsIn
  have ordered := cuts.ordered
  exact {
    nonempty := ordered.nonempty
    increasing := ordered.apart.imp_of_mem fun isFirst _ apart =>
      Nat.lt_of_lt_of_le (ordered.nonempty _ isFirst) apart
    apart := ordered.apart
    inside := fun token member => (stands token member).stop_le
    boundaries := fun token member => (stands token member).isValid
    idle := cuts.idleBetween [] [] rfl rfl (.nil _)
    line := fun token member => (stands token member).line_eq }

/-- A string over a line break, characters of two bytes, and a comment between two tokens. -/
def twoLines : String := "x = \"é\n\" # π\n + 2"

def twoLinesTokens : TokenStream :=
  [⟨.identifier "x", ⟨0, 1, 1⟩⟩, ⟨.symbol .equal, ⟨2, 3, 1⟩⟩, ⟨.string "é\n", ⟨4, 9, 1⟩⟩,
    ⟨.symbol .plus, ⟨16, 17, 3⟩⟩, ⟨.int 2, ⟨18, 19, 3⟩⟩]

theorem Token.scan_tiles_twoLines :
    scan twoLines = .ok twoLinesTokens ∧ TokenStream.Tiles twoLines twoLinesTokens := by
  have scans : scan twoLines = .ok twoLinesTokens := by decide +kernel
  exact ⟨scans, scan_tiles scans⟩

end MatrixScript

import MatrixScript.Proofs.Token.LongestMatch
import MatrixScript.Proofs.Token.Tiling

/-!
# String literals

Between its quotes a string literal consists of items: characters that stand for themselves, and
escapes.  An item is written in one way and means something, and `Token.scan_literals` says that
the scanner finds the same items as the writer had in mind, and no string without items.

Where a string ends and what it means are settled by two readers, and both must group
backslashes alike.  `StringTail.decodeWith` leaves open what is made of a backslash with nothing
behind it; in a string that the scanner has found there is none, so the answer is no matter.
-/

namespace MatrixScript

open Pattern

open scoped Computability

/-! ## Items -/

/-- A piece of a string literal between its quotes. -/
inductive StringItem where
  /-- A character, perhaps a line break, that stands for itself. -/
  | plain (char : Char) (ordinary : char ≠ '"' ∧ char ≠ '\\')
  /-- A backslash and the character behind it. -/
  | escape (char : Char) (sameLine : char ≠ '\n')

namespace StringItem

/-- The item in a source text. -/
def written : StringItem → List Char
  | .plain char _ => [char]
  | .escape char _ => ['\\', char]

/-- The characters that an escape stands for; an unknown one keeps its backslash. -/
def unescaped (escaped : Char) : List Char :=
  if escaped = 'n' then ['\n']
  else if escaped = 't' then ['\t']
  else if escaped = '\\' ∨ escaped = '"' then [escaped]
  else ['\\', escaped]

/-- The characters that the item stands for. -/
def meant : StringItem → List Char
  | .plain char _ => [char]
  | .escape char _ => unescaped char

/-- The text between the quotes. -/
def body (items : List StringItem) : List Char :=
  items.flatMap written

/-- The string literal with these items. -/
def literal (items : List StringItem) : String :=
  String.ofList ('"' :: (body items ++ ['"']))

/-- The string that a literal with these items stands for. -/
def content (items : List StringItem) : String :=
  String.ofList (items.flatMap meant)

theorem toList_literal (items : List StringItem) :
    (literal items).toList = '"' :: (body items ++ ['"']) :=
  String.toList_ofList

theorem mem_stringPart {text : List Char} :
    text ∈ stringPart ↔ ∃ item : StringItem, item.written = text := by
  constructor
  · rintro (⟨char, ordinary, rfl⟩ | ⟨_, rfl, _, ⟨escaped, sameLine, rfl⟩, rfl⟩)
    · exact ⟨.plain char (by simpa using ordinary), rfl⟩
    · exact ⟨.escape escaped sameLine, rfl⟩
  · rintro ⟨item, rfl⟩
    cases item with
    | plain char ordinary => exact .inl ⟨char, by simpa using ordinary, rfl⟩
    | escape char sameLine => exact .inr ⟨['\\'], rfl, [char], ⟨char, sameLine, rfl⟩, rfl⟩

/-- The texts between quotes are those that items are written as. -/
theorem mem_body {text : List Char} :
    text ∈ stringPart∗ ↔ ∃ items : List StringItem, body items = text := by
  constructor
  · rintro ⟨parts, rfl, areParts⟩
    induction parts with
    | nil => exact ⟨[], rfl⟩
    | cons part parts ih =>
        rw [List.forall_mem_cons] at areParts
        rcases mem_stringPart.mp areParts.1 with ⟨item, rfl⟩
        rcases ih areParts.2 with ⟨items, others⟩
        exact ⟨item :: items, congrArg (item.written ++ ·) others⟩
  · rintro ⟨items, rfl⟩
    refine ⟨items.map written, List.flatMap_def, ?_⟩
    intro part isPart
    rcases List.mem_map.mp isPart with ⟨item, _, rfl⟩
    exact mem_stringPart.mpr ⟨item, rfl⟩

end StringItem

/-! ## Decoding -/

namespace StringTail

/-- What a string body stands for, with a given answer to a backslash that nothing follows. -/
def decodeWith (lone : List Char) : List Char → List Char
  | [] => []
  | ['\\'] => lone
  | '\\' :: escaped :: rest => StringItem.unescaped escaped ++ decodeWith lone rest
  | char :: rest => char :: decodeWith lone rest

theorem decodeWith_plain (lone : List Char) {char : Char} (ordinary : char ≠ '\\')
    (rest : List Char) : decodeWith lone (char :: rest) = char :: decodeWith lone rest := by
  rw [decodeWith]
  · exact fun isBackslash _ => ordinary isBackslash
  · exact fun _ _ isBackslash _ => ordinary isBackslash

/-- The decoder keeps a backslash that nothing follows. -/
theorem decode_eq_decodeWith (input : List Char) : decode input = decodeWith ['\\'] input := by
  fun_induction decode input with
  | case1 => rfl
  | case2 rest ih => rw [decodeWith, ← ih]; rfl
  | case3 rest ih => rw [decodeWith, ← ih]; rfl
  | case4 rest ih => rw [decodeWith, ← ih]; rfl
  | case5 rest ih => rw [decodeWith, ← ih]; rfl
  | case6 other rest notBreak notTab notBackslash notQuote ih =>
      rw [decodeWith, ← ih, StringItem.unescaped, if_neg notBreak, if_neg notTab,
        if_neg (not_or.mpr ⟨notBackslash, notQuote⟩)]
      rfl
  | case7 char rest noBreak noTab noBackslash noQuote noEscape ih =>
      by_cases isBackslash : char = '\\'
      · subst isBackslash
        cases rest with
        | nil => rfl
        | cons escaped rest => exact absurd rfl (noEscape escaped rest rfl)
      · rw [decodeWith_plain _ isBackslash, ih]

/-- The decoder groups the characters of a body into the items it was written from. -/
theorem decodeWith_body (lone : List Char) (items : List StringItem) :
    decodeWith lone (StringItem.body items) = items.flatMap StringItem.meant := by
  induction items with
  | nil => rfl
  | cons item items ih =>
      rw [List.flatMap_cons, ← ih]
      cases item with
      | plain char ordinary => exact decodeWith_plain lone ordinary.2 _
      | escape char sameLine => rfl

end StringTail

/-! ## Scanning -/

namespace Lexeme

open StringItem

/-- A string literal is read whole, whatever stands behind it. -/
theorem read_literal (items : List StringItem) (more : List Char) :
    read '"' (body items ++ '"' :: more) =
      .ok ⟨(literal items).toList, some (.string (content items))⟩ := by
  have closes : StringTail.read (body items ++ '"' :: more) = .closed (body items) :=
    StringTail.read_append (mem_body.mpr ⟨items, rfl⟩) more
  have decoded : StringTail.decode (body items) = items.flatMap meant := by
    rw [StringTail.decode_eq_decodeWith, StringTail.decodeWith_body]
  rw [toList_literal, content, ← decoded]
  rw [read, if_neg (by decide), if_neg (by decide), if_neg (by decide), if_neg (by decide),
    if_pos rfl, closes]

/-- A lexeme with a string for its token is a string literal. -/
theorem exists_literal {first : Char} {rest : List Char} {lexeme : Lexeme} {value : String}
    (reads : read first rest = .ok lexeme) (isString : lexeme.token? = some (.string value)) :
    ∃ items : List StringItem, lexeme.chars = (literal items).toList ∧ value = content items := by
  rcases (taken_of_read reads).denotes with ⟨kind, claims, denotes⟩
  rcases lexeme with ⟨chars, _⟩
  cases isString
  cases denotes with
  | string inside =>
      rcases StringTail.mem_string.mp claims.isMatch with ⟨_, inString, same⟩
      cases List.append_cancel_right (List.cons.inj same).2
      rcases mem_body.mp inString with ⟨items, rfl⟩
      refine ⟨items, (toList_literal items).symm, ?_⟩
      rw [StringTail.decode_eq_decodeWith, StringTail.decodeWith_body, content]

end Lexeme

/-- The bytes of a text from one offset to another are the string literal with these items. -/
def LiteralBetween (source : String) (start stop : Nat) (items : List StringItem) : Prop :=
  ∃ before after : String, source = before ++ StringItem.literal items ++ after ∧
    before.utf8ByteSize = start ∧ (before ++ StringItem.literal items).utf8ByteSize = stop

namespace Token

open StringItem

/-- A text that is a string literal has one token, which takes it up. -/
theorem cuts_literal (items : List StringItem) :
    Cuts .origin (literal items).toList
      [⟨.string (content items), ⟨0, (literal items).utf8ByteSize, 1⟩⟩] := by
  have reads := Lexeme.read_literal items []
  have splits : '"' :: (body items ++ ['"']) = (literal items).toList ++ [] := by
    rw [List.append_nil, toList_literal]
  have placed : Position.origin.spanOf (literal items).toList =
      ⟨0, (literal items).utf8ByteSize, 1⟩ := by
    rw [Position.spanOf, Text.byteLength_toList, Position.origin, Nat.zero_add]
  rw [← placed]
  have cuts : Cuts .origin ('"' :: (body items ++ ['"'])) _ := .cons reads splits (.nil _)
  rw [← toList_literal] at cuts
  exact cuts

/-- A string among the tokens of a text is there as a literal. -/
theorem StandsIn.exists_literal {source value : String} {span : Span}
    (stands : StandsIn .origin source.toList ⟨.string value, span⟩) :
    ∃ items : List StringItem, LiteralBetween source span.start span.stop items ∧
      value = content items := by
  rcases stands.exists_piece with ⟨before, after, _, _, lexeme, splits, reads, isToken, rfl⟩
  rcases Lexeme.exists_literal reads isToken with ⟨items, chars, isContent⟩
  rw [chars] at splits ⊢
  refine ⟨items, ⟨String.ofList before, String.ofList after, ?_, ?_, ?_⟩, isContent⟩
  · rw [ofList_eq_append splits, String.ofList_append, String.ofList_toList]
  · exact Text.utf8ByteSize_ofList before
  · rw [← Text.byteLength_toList, String.toList_append, String.toList_ofList]

/--
A string literal is one token, with the content that its items mean, and every string among the
tokens of a text comes from such a literal.  So the decoder never has a backslash before it that
nothing follows: the string is the same whatever would be made of one.
-/
theorem scan_literals :
    (∀ items : List StringItem, scan (literal items) =
      .ok [⟨.string (content items), ⟨0, (literal items).utf8ByteSize, 1⟩⟩]) ∧
    ∀ (source : String) (tokens : TokenStream), scan source = .ok tokens →
      ∀ (value : String) (span : Span), ⟨.string value, span⟩ ∈ tokens →
        ∃ items : List StringItem, LiteralBetween source span.start span.stop items ∧
          value = content items ∧
          ∀ lone, String.ofList (StringTail.decodeWith lone (body items)) = value := by
  refine ⟨fun items => scan_eq_ok_iff.mpr (cuts_literal items), ?_⟩
  intro source tokens scans value span member
  have stands := (scan_eq_ok_iff.mp scans).standsIn _ member
  rcases stands.exists_literal with ⟨items, isLiteral, rfl⟩
  refine ⟨items, isLiteral, rfl, fun lone => ?_⟩
  rw [StringTail.decodeWith_body, content]

/-- An escaped backslash in front of an escaped quote, a line break, and an unknown escape. -/
def backslashes : List StringItem :=
  [.escape '\\' (by decide), .escape '"' (by decide), .plain '\n' (by decide),
    .escape 'q' (by decide)]

def backslashesTokens : TokenStream :=
  [⟨.identifier "x", ⟨0, 1, 1⟩⟩, ⟨.string "\\\"\n\\q", ⟨1, 10, 1⟩⟩, ⟨.string "", ⟨10, 12, 2⟩⟩]

theorem scan_literals_backslashes :
    literal backslashes = "\"\\\\\\\"\n\\q\"" ∧ content backslashes = "\\\"\n\\q" ∧
    scan (literal backslashes) = .ok
      [⟨.string (content backslashes), ⟨0, (literal backslashes).utf8ByteSize, 1⟩⟩] ∧
    scan ("x" ++ literal backslashes ++ "\"\"") = .ok backslashesTokens ∧
    ∃ items : List StringItem,
      LiteralBetween ("x" ++ literal backslashes ++ "\"\"") 1 10 items ∧
        "\\\"\n\\q" = content items ∧
        ∀ lone, String.ofList (StringTail.decodeWith lone (body items)) = "\\\"\n\\q" := by
  have scans : scan ("x" ++ literal backslashes ++ "\"\"") = .ok backslashesTokens := by
    decide +kernel
  refine ⟨by decide, by decide, scan_literals.1 backslashes, scans, ?_⟩
  exact scan_literals.2 _ _ scans _ ⟨1, 10, 1⟩ (.tail _ (.head _))

end Token

end MatrixScript

import MatrixScript.Stmt.Parser
import MatrixScript.Proofs.Expr.Spans
import MatrixScript.Proofs.Stmt.ParserSoundness

/-!
# Spans of programs that were read

Every node of a program that is read from a text has the exact span of its tokens.  A
statement ends with its last token other than the closing semicolon; so a branch or a loop
ends where its last statement does, and what follows that one follows the whole.
-/

namespace MatrixScript

open Reader TokenStream

theorem AssignOp.symbol_eq_of_assignOp? {symbol : Symbol} {op : AssignOp}
    (means : Stmt.assignOp? symbol = some op) : symbol = op.symbol := by
  cases symbol <;> cases means <;> rfl

namespace Stmt

variable {expr : Reader Expr} {statement : Reader Stmt}

/-! ## Simple statements -/

/--
The reader yields statements that a semicolon follows, and that cover the tokens taken
together with those before them.
-/
def CompletesSimple (reader : Reader Stmt) (before : TokenStream) : Prop :=
  Uses reader fun taken result => result.takesSemicolon = true ∧
    (Ordered (before ++ taken) → (Node.stmt result).Covers (before ++ taken))

theorem assignment_completes (covers : Covers expr .expr) (fuel : Nat) :
    CompletesSimple (assignment expr fuel) [] := by
  unfold assignment
  refine Uses.bind (Expr.variableOrReference_covers covers fuel) fun front target left => ?_
  refine Uses.acceptSymbol? (fun symbol op mark means => ?_) (Uses.unexpected _)
  refine Uses.bind covers fun back value right => ?_
  refine Uses.pure ⟨rfl, fun ordered => ?_⟩
  rw [List.nil_append, List.append_nil, AssignOp.symbol_eq_of_assignOp? means] at ordered ⊢
  have joined := (left ordered.left).join ordered (right ordered.right.tail)
  exact ⟨0, 0, joined.1, joined.2⟩

theorem returnFrom_completes (covers : Covers expr .expr) (start : Span) :
    CompletesSimple (returnFrom expr start) [⟨.keyword .«return», start⟩] := by
  unfold returnFrom
  refine Uses.peek? fun token => ?_
  split
  · exact Uses.pure fun _ => ⟨rfl, fun _ => ⟨0, 0, .token .nil, rfl⟩⟩
  · refine Uses.bind covers fun taken value valueCovers => ?_
    refine Uses.pure fun _ => ⟨rfl, fun ordered => ?_⟩
    rw [List.append_nil] at ordered ⊢
    have inner := valueCovers ordered.right
    refine ⟨0, 0, .token (.of_covers_only inner), ?_⟩
    exact ordered.extent?_merge [_] [] (extent?_singleton _) inner.extent

theorem printFrom_completes (covers : Covers expr .expr) (fuel : Nat) (start : Span) :
    CompletesSimple (printFrom expr fuel start) [⟨.keyword .print, start⟩] := by
  unfold printFrom
  refine ((items_uses covers fuel).tracked start).bind ?_
  rintro taken ⟨arguments, last⟩ ⟨spell, rfl⟩
  refine Uses.pure ⟨rfl, fun ordered => ?_⟩
  rw [List.append_nil] at ordered ⊢
  exact ⟨0, 0, .token (spell ordered.right), ordered.extent?_lastSpan⟩

theorem simple_completes (covers : Covers expr .expr) (fuel : Nat) :
    CompletesSimple (simple expr fuel) [] := by
  intro tokens result rest ran
  unfold simple at ran
  split at ran
  · cases ran
    exact ⟨[⟨_, _⟩], rfl, rfl, fun _ => ⟨0, 0, .token .nil, rfl⟩⟩
  · cases ran
    exact ⟨[⟨_, _⟩], rfl, rfl, fun _ => ⟨0, 0, .token .nil, rfl⟩⟩
  · rcases returnFrom_completes covers _ _ _ _ ran with ⟨taken, rfl, whole⟩
    exact ⟨⟨_, _⟩ :: taken, rfl, whole⟩
  · rcases printFrom_completes covers fuel _ _ _ _ ran with ⟨taken, rfl, whole⟩
    exact ⟨⟨_, _⟩ :: taken, rfl, whole⟩
  · exact assignment_completes covers fuel _ _ _ ran
  · exact absurd ran unexpected_ne_ok

/-! ## Statements -/

/-- When they are in order, the tokens taken are those of the statement and its terminator. -/
def Spelled (reader : Reader Stmt) : Prop :=
  Uses reader fun taken result => Ordered taken → Piece.Spell result.withTerminator taken

/-- The tokens taken complete a statement that begins with the first token. -/
def Finishes (reader : Reader Stmt) (first : Located Token) : Prop :=
  Uses reader fun taken result =>
    Ordered (first :: taken) → Piece.Spell result.withTerminator (first :: taken)

/-- A statement ends with its last inner one, and the same follows both. -/
theorem spell_of_last {result last : Stmt} {pieces : List Piece} {first : Located Token}
    {front taken : TokenStream} (header : Piece.Spell pieces (first :: front))
    (ends : Ordered taken → Piece.Spell last.withTerminator taken)
    (arePieces : result.pieces = pieces ++ [.node (.stmt last)])
    (follows : result.takesSemicolon = last.takesSemicolon)
    (isSpan : result.span = first.span.merge last.span)
    (ordered : Ordered (first :: (front ++ taken))) :
    Piece.Spell result.withTerminator (first :: (front ++ taken)) := by
  -- What follows the last inner statement is cut off, and follows the whole.
  rcases Piece.spell_node_iff.mp (ends ordered.tail.right) with
    ⟨inside, rest, rfl, covers, terminates⟩
  rw [← List.append_assoc, ← List.cons_append] at ordered ⊢
  have whole : (Node.stmt result).Covers (first :: (front ++ inside)) := by
    refine ⟨0, 0, ?_, ?_⟩
    · rw [Node.pieces, arePieces, ← List.cons_append]
      exact header.append (.of_covers_only covers)
    · rw [Node.span, isSpan]
      exact ordered.left.extent?_merge [first] front (extent?_singleton first) covers.extent
  have same : result.terminator = last.terminator := by rw [terminator, terminator, follows]
  rw [withTerminator, same]
  exact .of_covers whole terminates

theorem ne_nil_of_spell {result : Stmt} {tokens : TokenStream}
    (spell : Piece.Spell result.withTerminator tokens) : tokens ≠ [] := by
  rcases Piece.spell_node_iff.mp spell with ⟨inside, rest, rfl, covers, _⟩
  rcases exists_starts covers.extent with ⟨token, member, _⟩
  exact List.append_ne_nil_of_left_ne_nil (List.ne_nil_of_mem member) rest

theorem terminated_spelled (covers : Covers expr .expr) (fuel : Nat) :
    Spelled (terminated expr fuel) := by
  unfold terminated
  refine Uses.bind (simple_completes covers fuel) ?_
  rintro taken result ⟨takes, simple⟩
  refine Uses.expect fun semicolon => ?_
  refine Uses.pure fun ordered => ?_
  rw [withTerminator, terminator, if_pos takes]
  exact .of_covers (simple ordered.left) (.token .nil)

theorem condition_uses (covers : Covers expr .expr) :
    Uses (condition expr) fun taken test => ∃ opening closing inside,
      taken = ⟨.symbol .openParen, opening⟩ :: (inside ++ [⟨.symbol .closeParen, closing⟩]) ∧
        (Ordered inside → (Node.expr test).Covers inside) := by
  unfold condition
  refine Uses.expect fun opening => ?_
  refine Uses.bind covers fun inside test testCovers => ?_
  refine Uses.expect fun closing => ?_
  exact Uses.pure ⟨opening, closing, inside, rfl, testCovers⟩

theorem blockBody_uses (spelled : Spelled statement) (fuel : Nat) :
    Uses (blockBody statement fuel) fun taken result => ∃ inside,
      taken = inside ++ [⟨.symbol .closeBrace, result.2⟩] ∧
        (Ordered inside → Piece.Spell (result.1.flatMap withTerminator) inside) := by
  induction fuel with
  | zero => exact Uses.unexpected _
  | succ fuel ih =>
      rw [blockBody]
      refine Uses.accept? (fun close => Uses.pure ⟨[], rfl, fun _ => .nil⟩) ?_
      refine Uses.peek? fun token => ?_
      split
      · exact Uses.unexpected _
      · refine Uses.bind spelled fun front head headSpell => ?_
        refine ih.bind ?_
        rintro _ ⟨tail, close⟩ ⟨inside, rfl, tailSpell⟩
        refine Uses.pure fun _ => ⟨front ++ inside, by simp, fun ordered => ?_⟩
        exact (headSpell ordered.left).append (tailSpell ordered.right)

theorem blockFrom_finishes (spelled : Spelled statement) (fuel : Nat) (start : Span) :
    Finishes (blockFrom statement fuel start) ⟨.symbol .openBrace, start⟩ := by
  unfold blockFrom
  refine (blockBody_uses spelled fuel).bind ?_
  rintro _ ⟨body, close⟩ ⟨inside, rfl, bodySpell⟩
  refine Uses.pure fun ordered => ?_
  rw [List.append_nil] at ordered ⊢
  refine .of_covers_only ⟨0, 0, ?_, ?_⟩
  · exact .token ((bodySpell ordered.tail.left).append (.token .nil))
  · exact ordered.extent?_enclosed inside

theorem spell_condition (keyword : Keyword) (start opening closing : Span) {test : Expr}
    {inside : TokenStream} (covers : (Node.expr test).Covers inside) :
    Piece.Spell
      [.token (.keyword keyword), .symbol .openParen, .node (.expr test), .symbol .closeParen]
      (⟨.keyword keyword, start⟩ :: ⟨.symbol .openParen, opening⟩ ::
        (inside ++ [⟨.symbol .closeParen, closing⟩])) :=
  .token (.token (.of_covers covers (.token .nil)))

theorem branchFrom_finishes (covers : Covers expr .expr) (spelled : Spelled statement)
    (start : Span) :
    Finishes (branchFrom expr statement start) ⟨.keyword .«if», start⟩ := by
  unfold branchFrom
  refine (condition_uses covers).bind ?_
  rintro _ test ⟨opening, closing, inside, rfl, testCovers⟩
  refine Uses.bind spelled fun taken thenBranch thenSpell => ?_
  refine Uses.accept? (fun mark => ?_) (Uses.pure fun ordered => ?_)
  · refine Uses.bind spelled fun other elseBranch elseSpell => ?_
    refine Uses.pure fun ordered => ?_
    have header := spell_condition .«if» start opening closing
      (testCovers ordered.tail.left.tail.left)
    have alternative : Piece.Spell (thenBranch.withTerminator ++ [.token (.keyword .«else»)])
        (taken ++ [⟨.keyword .«else», mark⟩]) :=
      (thenSpell ordered.tail.right.left).append (.token .nil)
    -- All up to the `else` is in front of the last inner statement.
    rw [List.append_nil, List.append_cons taken, ← List.append_assoc] at ordered ⊢
    refine spell_of_last (header.append alternative) elseSpell ?_ rfl rfl ordered
    simp [pieces]
  · have header := spell_condition .«if» start opening closing
      (testCovers ordered.tail.left.tail.left)
    rw [List.append_nil] at ordered ⊢
    exact spell_of_last header thenSpell rfl rfl rfl ordered

theorem whileFrom_finishes (covers : Covers expr .expr) (spelled : Spelled statement)
    (start : Span) :
    Finishes (whileFrom expr statement start) ⟨.keyword .«while», start⟩ := by
  unfold whileFrom
  refine (condition_uses covers).bind ?_
  rintro _ test ⟨opening, closing, inside, rfl, testCovers⟩
  refine Uses.bind spelled fun taken body bodySpell => ?_
  refine Uses.pure fun ordered => ?_
  have header := spell_condition .«while» start opening closing
    (testCovers ordered.tail.left.tail.left)
  rw [List.append_nil] at ordered ⊢
  exact spell_of_last header bodySpell rfl rfl rfl ordered

theorem forFrom_finishes (covers : Covers expr .expr) (spelled : Spelled statement)
    (start : Span) :
    Finishes (forFrom expr statement start) ⟨.keyword .«for», start⟩ := by
  unfold forFrom
  refine Uses.identifier fun name span => ?_
  refine Uses.expect fun equal => ?_
  refine Uses.bind covers fun low first firstCovers => ?_
  refine Uses.expect fun colon => ?_
  refine Uses.bind covers fun high last lastCovers => ?_
  refine Uses.bind spelled fun taken body bodySpell => ?_
  refine Uses.pure fun ordered => ?_
  have firstSpan := firstCovers ordered.tail.tail.tail.left
  have lastSpan := lastCovers ordered.tail.tail.tail.right.tail.left
  have header : Piece.Spell
      [.token (.keyword .«for»), .node (.name ⟨name, span⟩), .symbol .equal, .node (.expr first),
        .symbol .colon, .node (.expr last)]
      (⟨.keyword .«for», start⟩ :: ⟨.identifier name, span⟩ :: ⟨.symbol .equal, equal⟩ ::
        (low ++ ⟨.symbol .colon, colon⟩ :: high)) := by
    refine .token (.of_covers (Node.covers_name ⟨name, span⟩) (.token ?_))
    exact .of_covers firstSpan (.token (.of_covers_only lastSpan))
  have shape : low ++ ⟨.symbol .colon, colon⟩ :: (high ++ taken) =
      (low ++ ⟨.symbol .colon, colon⟩ :: high) ++ taken := by
    rw [List.append_assoc, List.cons_append]
  rw [List.append_nil, shape] at ordered ⊢
  exact spell_of_last header bodySpell rfl rfl rfl ordered

/-- When the tokens are in order, those taken are of the statement and its terminator. -/
theorem reader_spelled (fuel : Nat) : Spelled (reader fuel) := by
  induction fuel with
  | zero => exact Uses.unexpected _
  | succ fuel ih =>
      have covers := Expr.reader_covers fuel
      intro tokens result rest ran
      unfold reader at ran
      split at ran
      · rcases blockFrom_finishes ih fuel _ _ _ _ ran with ⟨taken, rfl, whole⟩
        exact ⟨⟨_, _⟩ :: taken, rfl, whole⟩
      · rcases branchFrom_finishes covers ih _ _ _ _ ran with ⟨taken, rfl, whole⟩
        exact ⟨⟨_, _⟩ :: taken, rfl, whole⟩
      · rcases whileFrom_finishes covers ih _ _ _ _ ran with ⟨taken, rfl, whole⟩
        exact ⟨⟨_, _⟩ :: taken, rfl, whole⟩
      · rcases forFrom_finishes covers ih _ _ _ _ ran with ⟨taken, rfl, whole⟩
        exact ⟨⟨_, _⟩ :: taken, rfl, whole⟩
      · exact terminated_spelled (Expr.reader_covers (fuel + 1)) fuel _ _ _ ran

end Stmt

/-! ## Programs -/

/--
The node stands in the text as a run of its tokens, from the first to the last of which its
span reaches; the spans of its children lie in its own, one behind the other.
-/
structure Node.Exact (source : String) (tokens : TokenStream) (node : Node) : Prop where
  covers : ∃ front inside back, tokens = front ++ (inside ++ back) ∧ node.Covers inside
  nonempty : node.span.start < node.span.stop
  bounded : node.span.stop ≤ source.utf8ByteSize
  line : node.span.line = 1 + lineBreaksBefore source node.span.start
  children_within : ∀ child ∈ node.children,
    node.span.start ≤ child.span.start ∧ child.span.stop ≤ node.span.stop
  children_apart :
    node.children.Pairwise fun first second => first.span.stop ≤ second.span.start

theorem Node.Covers.exact {node : Node} {source : String} {front inside back : TokenStream}
    (cuts : Token.Cuts .origin source.toList (front ++ (inside ++ back)))
    (covers : node.Covers inside) : node.Exact source (front ++ (inside ++ back)) := by
  have ordered : Ordered inside := cuts.ordered.right.left
  have stands (token : Located Token) (member : token ∈ inside) :
      Token.StandsIn .origin source.toList token :=
    cuts.standsIn token (List.mem_append_right front (List.mem_append_left back member))
  rcases exists_starts covers.extent with ⟨first, isFirst, starts, onLine⟩
  rcases exists_stops covers.extent with ⟨last, isLast, stops⟩
  constructor
  case covers => exact ⟨front, inside, back, rfl, covers⟩
  case nonempty => exact ordered.extent_pos covers.extent
  case bounded =>
    rw [← stops]
    exact (stands last isLast).stop_le
  case line =>
    rw [← onLine, ← starts]
    exact (stands first isFirst).line_eq
  case children_within => exact covers.child_within ordered
  case children_apart => exact covers.children_apart ordered

namespace Program

theorem covers_of_parts {parts : List (Stmt × TokenStream)}
    (each : ∀ part ∈ parts, Ordered part.2 → Piece.Spell part.1.withTerminator part.2)
    (ordered : Ordered (parts.map Prod.snd).flatten) :
    Covers ⟨parts.map Prod.fst⟩ (parts.map Prod.snd).flatten := by
  induction parts with
  | nil => exact .nil
  | cons part others ih =>
      rw [List.forall_mem_cons] at each
      rw [List.map_cons, List.flatten_cons] at ordered
      exact (each.1 ordered.left).append (ih each.2 ordered.right)

theorem ofTokens_covers {tokens : TokenStream} {program : Program} (ordered : Ordered tokens)
    (parsed : ofTokens tokens = .ok program) : program.Covers tokens := by
  unfold ofTokens at parsed
  split at parsed
  · cases parsed
  · rename_i body ran
    cases parsed
    have nonempty (result : Stmt) :
        ¬ (Ordered [] → Piece.Spell result.withTerminator []) := by
      intro spell
      exact Stmt.ne_nil_of_spell (spell .nil) rfl
    rcases statements_use (Stmt.reader_spelled _) nonempty (Nat.le_refl _) ran with
      ⟨parts, rfl, splits, each⟩
    rw [splits] at ordered ⊢
    exact covers_of_parts each ordered

/-- A node of a program that covers the tokens of a text is exact. -/
theorem Covers.exact {program : Program} {source : String} {tokens : TokenStream}
    (covers : program.Covers tokens) (cuts : Token.Cuts .origin source.toList tokens)
    {node : Node} (contains : program.Contains node) : node.Exact source tokens := by
  rcases contains with ⟨statement, inBody, within⟩
  have member : Node.stmt statement ∈
      (program.body.flatMap Stmt.withTerminator).filterMap Piece.node? := by
    rw [Stmt.filterMap_body]
    exact List.mem_map_of_mem inBody
  rcases covers.covers_of_mem member with ⟨before, middle, after, rfl, statementCovers⟩
  rcases statementCovers.of_within within with ⟨front, inside, back, rfl, nodeCovers⟩
  have shape : before ++ ((front ++ (inside ++ back)) ++ after) =
      (before ++ front) ++ (inside ++ (back ++ after)) := by
    simp only [List.append_assoc]
  rw [shape] at cuts ⊢
  exact nodeCovers.exact cuts

theorem Covers.body_apart {program : Program} {tokens : TokenStream}
    (covers : program.Covers tokens) (ordered : Ordered tokens) :
    program.body.Pairwise fun first second => first.span.stop ≤ second.span.start := by
  have apart := covers.nodes_apart ordered
  rw [Stmt.filterMap_body, List.pairwise_map] at apart
  exact apart

/--
The spans of a program that is read from a text are exact.  The tokens of the text stand
where their spans say, and are those of the statements of the program; every node of the
program covers its tokens, from the first to the last.
-/
theorem parse_exact {source : String} {program : Program} (parses : parse source = .ok program) :
    ∃ tokens, Token.scan source = .ok tokens ∧
      (∀ token ∈ tokens, Token.StandsIn .origin source.toList token) ∧
      program.Covers tokens ∧
      program.body.Pairwise (fun first second => first.span.stop ≤ second.span.start) ∧
      ∀ node, program.Contains node → node.Exact source tokens := by
  unfold parse at parses
  split at parses
  · cases parses
  · rename_i tokens scans
    split at parses
    · cases parses
    · rename_i read parsed
      cases parses
      have cuts := Token.scan_eq_ok_iff.mp scans
      have covers := ofTokens_covers cuts.ordered parsed
      exact ⟨tokens, scans, cuts.standsIn, covers, covers.body_apart cuts.ordered,
        fun node contains => covers.exact cuts contains⟩

/-- Two statements on three lines, with parentheses, a slice, a row and an alternative. -/
def Sample.threeLines : String :=
  "n = 2;\nfor i = 0:1\n  if ((i) < n) print m[i, :]'; else \x7b m = [[(i)]]; \x7d"

theorem parse_exact_threeLines :
    ∃ program, parse Sample.threeLines = .ok program ∧
      program.body.map Stmt.span = [⟨0, 5, 1⟩, ⟨7, 71, 2⟩] ∧
      ∃ tokens, Token.scan Sample.threeLines = .ok tokens ∧
        (∀ token ∈ tokens, Token.StandsIn .origin Sample.threeLines.toList token) ∧
        program.Covers tokens ∧
        program.body.Pairwise (fun first second => first.span.stop ≤ second.span.start) ∧
        ∀ node, program.Contains node → node.Exact Sample.threeLines tokens := by
  have spans : (parse Sample.threeLines).toOption.map (fun program => program.body.map Stmt.span) =
      some [⟨0, 5, 1⟩, ⟨7, 71, 2⟩] := by
    decide +kernel
  cases parses : parse Sample.threeLines with
  | error error =>
      rw [parses] at spans
      cases spans
  | ok program =>
      rw [parses] at spans
      exact ⟨program, rfl, Option.some.inj spans, parse_exact parses⟩

end Program

end MatrixScript

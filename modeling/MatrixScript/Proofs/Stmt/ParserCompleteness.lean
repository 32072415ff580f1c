import MatrixScript.Proofs.Expr.ParserCompleteness
import MatrixScript.Proofs.Stmt.ParserSoundness

/-!
# Readers of statements are complete

The reader of statements takes whatever the grammar derives, in front of any stream at
which the statement stops.  Only an `else` can go on with a statement, and only with one
that ends open.

With soundness this makes `Program.ofTokens` read exactly the programs of the grammar.
-/

namespace MatrixScript

open Reader TokenStream

namespace Stmt

/-! ## Simple statements -/

theorem rank_of_mem_symbols {symbol : Symbol} {op : AssignOp}
    (means : (symbol, op) ∈ AssignOp.symbols) : symbol.rank = 7 := by
  simp only [AssignOp.symbols, List.mem_cons, Prod.mk.injEq, List.not_mem_nil, or_false] at means
  rcases means with ⟨rfl, _⟩ | ⟨rfl, _⟩ | ⟨rfl, _⟩ | ⟨rfl, _⟩ | ⟨rfl, _⟩ <;> rfl

theorem semicolon_ends {rank : Nat} (below : rank < 7) :
    ∀ token, token = some (Token.symbol .semicolon) → EndsBefore rank token := by
  rintro token rfl
  exact .of_some below

theorem assignment_takes {target value : Expr} {front back : List Token} {symbol : Symbol}
    {op : AssignOp} (left : (Phrase.target target).Derives front)
    (means : (symbol, op) ∈ AssignOp.symbols) (right : (Phrase.whole value).Derives back)
    {depth bound : Nat} (deep : (front ++ .symbol symbol :: back).length < depth)
    (enough : (front ++ .symbol symbol :: back).length ≤ bound) :
    Takes (assignment (Expr.reader depth) bound) (front ++ .symbol symbol :: back)
      (· = some (.symbol .semicolon)) (·.bare = .assign default target op value) := by
  rw [List.length_append, List.length_cons] at deep enough
  have targets := left.complete depth bound (by omega) (by omega)
  have values := right.complete depth (by omega)
  unfold assignment
  refine targets.bind ?_ fun read isTarget => ?_
  · intro token _
    refine EndsBefore.of_some ?_
    rw [Token.rank, rank_of_mem_symbols means]
    decide
  · refine Takes.acceptSymbol? (AssignOp.assignOp?_eq_some_iff.mpr means) ?_
    refine values.last (semicolon_ends (by decide)) fun tree isTree => ?_
    refine Takes.pure ?_
    rw [bare, isTarget, isTree]

theorem returnFrom_takes {value : Expr} {tokens : List Token}
    (derives : (Phrase.whole value).Derives tokens) {depth : Nat} (deep : tokens.length < depth)
    (start : Span) :
    Takes (returnFrom (Expr.reader depth) start) tokens (· = some (.symbol .semicolon))
      (·.bare = .return default (some value)) := by
  have values := derives.complete depth deep
  have semicolon : Symbol.semicolon.Delimits := ⟨by decide, rfl⟩
  rcases derives.head_ne semicolon with ⟨head, begins, differs⟩
  unfold returnFrom
  refine Takes.peek? fun token _ => ?_
  rw [begins, Option.some_or]
  split
  · rename_i same
    cases same
    exact absurd rfl differs
  · refine values.last (semicolon_ends (by decide)) fun tree isTree => ?_
    refine Takes.pure ?_
    rw [bare, Option.map_some, isTree]

theorem printFrom_takes {parts : List (Expr × List Token)} (nonempty : parts ≠ [])
    (each : ∀ part ∈ parts, (Phrase.whole part.1).Derives part.2) {depth bound : Nat}
    (deep : (commaSeparated (parts.map Prod.snd)).length < depth)
    (enough : (commaSeparated (parts.map Prod.snd)).length ≤ bound) (start : Span) :
    Takes (printFrom (Expr.reader depth) bound start) (commaSeparated (parts.map Prod.snd))
      (· = some (.symbol .semicolon)) (·.bare = .print default (parts.map Prod.fst)) := by
  have ready : Ready parts := ⟨each, fun part member => (each part member).complete⟩
  have takes := ready.takes deep
  have count := count_le_commaSeparated (parts.map Prod.snd)
  rw [List.length_map] at count
  have comma : EndsBefore 6 (some (.symbol .comma)) := .of_some (by decide)
  have ends : ∀ token, token = some (Token.symbol .semicolon) →
      EndsBefore 6 token ∧ token ≠ some (.symbol .comma) := by
    rintro token rfl
    exact ⟨.of_some (by decide), nofun⟩
  have listed := Takes.items comma ends nonempty takes (by omega : parts.length ≤ bound + 1)
  unfold printFrom
  refine (listed.tracked start).last (fun token goesOn => goesOn) ?_
  rintro ⟨arguments, last⟩ argumentsAre
  refine Takes.pure ?_
  rw [bare, Expr.bareAll_eq_map, argumentsAre]

theorem Simple.takes {statement : Stmt} {tokens : List Token}
    (spelled : Simple statement tokens) {depth bound : Nat} (deep : tokens.length < depth)
    (enough : tokens.length ≤ bound) :
    Takes (simple (Expr.reader depth) bound) tokens (· = some (.symbol .semicolon))
      (·.bare = statement) := by
  cases spelled with
  | «break» =>
      exact Takes.dispatch (fun span => pure (.jump span .«break»)) (fun _ _ => rfl)
        fun span => Takes.pure rfl
  | «continue» =>
      exact Takes.dispatch (fun span => pure (.jump span .«continue»)) (fun _ _ => rfl)
        fun span => Takes.pure rfl
  | returnNothing =>
      refine Takes.dispatch (returnFrom (Expr.reader depth)) (fun _ _ => rfl) fun span => ?_
      unfold returnFrom
      refine Takes.peek? ?_
      rintro token rfl
      exact Takes.pure rfl
  | returnValue derives =>
      rw [List.length_cons] at deep
      refine Takes.dispatch (returnFrom (Expr.reader depth)) (fun _ _ => rfl) ?_
      exact returnFrom_takes derives (by omega)
  | print nonempty each =>
      rw [List.length_cons] at deep enough
      refine Takes.dispatch (printFrom (Expr.reader depth) bound) (fun _ _ => rfl) ?_
      exact printFrom_takes nonempty each (by omega) (by omega)
  | assign left means right =>
      have takes := assignment_takes left means right deep enough
      rcases left.head_of_target with ⟨name, others, rfl⟩
      intro taken rest spells goesOn
      rcases takes taken rest spells goesOn with ⟨result, ran, isGood⟩
      refine ⟨result, ?_, isGood⟩
      rcases List.map_eq_cons_iff.mp spells with ⟨⟨item, span⟩, more, rfl, same, _⟩
      cases same
      exact ran

/-! ## Statements -/

/-- With fuel for all tokens, the reader takes them as the statement. -/
def Complete (tokens : List Token) (statement : Stmt) : Prop :=
  ∀ fuel, tokens.length < fuel →
    Takes (reader fuel) tokens statement.StopsAt (·.bare = statement)

theorem reader_of_opensSimple {token : Located Token} (opens : token.item.opensSimple = true)
    (fuel : Nat) (rest : TokenStream) :
    reader (fuel + 1) (token :: rest) =
      terminated (Expr.reader (fuel + 1)) fuel (token :: rest) := by
  rcases token with ⟨item, span⟩
  cases item with
  | symbol mark => cases opens
  | keyword word => cases word <;> cases opens <;> rfl
  | _ => rfl

theorem Simple.complete {statement : Stmt} {tokens : List Token}
    (spelled : Simple statement tokens) :
    Complete (tokens ++ [.symbol .semicolon]) statement := by
  intro fuel deep
  rw [List.length_append, List.length_singleton] at deep
  cases fuel with
  | zero => omega
  | succ fuel =>
      have simples : Takes (simple (Expr.reader (fuel + 1)) fuel) tokens _ _ :=
        spelled.takes (by omega) (by omega)
      have takes : Takes (terminated (Expr.reader (fuel + 1)) fuel)
          (tokens ++ [.symbol .semicolon]) statement.StopsAt (·.bare = statement) := by
        refine simples.bind (fun _ _ => rfl) fun result isResult => ?_
        exact Takes.expect fun span => Takes.pure isResult
      rcases spelled.opens with ⟨head, begins, opens⟩
      rcases List.head?_eq_some_iff.mp begins with ⟨others, rfl⟩
      intro taken rest spells goesOn
      rcases takes taken rest spells goesOn with ⟨result, ran, isGood⟩
      refine ⟨result, ?_, isGood⟩
      rcases List.map_eq_cons_iff.mp spells with ⟨token, more, rfl, rfl, _⟩
      rw [← ran, List.cons_append]
      exact reader_of_opensSimple opens fuel (more ++ rest)

theorem head?_ne_else {parts : List (Stmt × List Token)}
    (each : ∀ part ∈ parts, part.1.Derives part.2) {token : Option Token}
    (differs : token ≠ some (.keyword .«else»)) :
    (parts.map Prod.snd).flatten.head?.or token ≠ some (.keyword .«else») := by
  cases parts with
  | nil => exact differs
  | cons part others =>
      rcases (each part List.mem_cons_self).opens with ⟨head, begins, opens⟩
      rw [List.map_cons, List.flatten_cons, List.head?_append, begins, Option.some_or,
        Option.some_or]
      rintro ⟨⟩
      cases opens

theorem length_le_flatten {parts : List (Stmt × List Token)}
    (each : ∀ part ∈ parts, part.1.Derives part.2) :
    parts.length ≤ (parts.map Prod.snd).flatten.length := by
  induction parts with
  | nil => exact Nat.le_refl 0
  | cons part others ih =>
      rw [List.forall_mem_cons] at each
      have shorter := ih each.2
      have positive := List.length_pos_iff.mpr each.1.ne_nil
      rw [List.map_cons, List.flatten_cons, List.length_append, List.length_cons]
      omega

theorem length_le_flatten_of_mem {part : Stmt × List Token} {parts : List (Stmt × List Token)}
    (member : part ∈ parts) : part.2.length ≤ (parts.map Prod.snd).flatten.length :=
  (List.sublist_flatten_of_mem (List.mem_map_of_mem member)).length_le

theorem blockBody_takes {statement : Reader Stmt} {parts : List (Stmt × List Token)}
    (each : ∀ part ∈ parts, part.1.Derives part.2)
    (takes : ∀ part ∈ parts, Takes statement part.2 part.1.StopsAt (·.bare = part.1))
    {fuel : Nat} (enough : parts.length < fuel) :
    Takes (blockBody statement fuel)
      ((parts.map Prod.snd).flatten ++ [.symbol .closeBrace]) (fun _ => True)
      fun result => bareAll result.1 = parts.map Prod.fst := by
  induction parts generalizing fuel with
  | nil =>
      cases fuel with
      | zero => cases enough
      | succ fuel =>
          rw [blockBody]
          exact Takes.accept? fun close => Takes.pure rfl
  | cons part others ih =>
      cases fuel with
      | zero => cases enough
      | succ fuel =>
          rw [List.forall_mem_cons] at each takes
          rcases each.1.opens with ⟨head, begins, opens⟩
          have start : (((part :: others).map Prod.snd).flatten ++
              [Token.symbol .closeBrace]).head? = some head := by
            rw [List.map_cons, List.flatten_cons, List.append_assoc, List.head?_append, begins,
              Option.some_or]
          rw [blockBody]
          refine Takes.pass ?_ ?_
          · intro token _
            rw [start, Option.some_or]
            rintro ⟨⟩
            cases opens
          · refine Takes.peek? fun token _ => ?_
            rw [start, Option.some_or, List.map_cons, List.flatten_cons, List.append_assoc]
            refine takes.1.bind ?_ fun first isFirst => ?_
            · intro token _ _
              rw [List.head?_append, Option.or_assoc]
              apply head?_ne_else each.2
              rintro ⟨⟩
            · have tails := ih each.2 takes.2 (Nat.lt_of_succ_lt_succ enough)
              refine tails.last (fun _ _ => trivial) ?_
              rintro ⟨tail, close⟩ isTail
              refine Takes.pure ?_
              rw [bareAll, isFirst, isTail, List.map_cons]

theorem Complete.block {parts : List (Stmt × List Token)}
    (each : ∀ part ∈ parts, part.1.Derives part.2)
    (complete : ∀ part ∈ parts, Complete part.2 part.1) :
    Complete (.symbol .openBrace :: ((parts.map Prod.snd).flatten ++ [.symbol .closeBrace]))
      (.block default (parts.map Prod.fst)) := by
  intro fuel deep
  simp only [List.length_cons, List.length_append, List.length_nil] at deep
  cases fuel with
  | zero => omega
  | succ fuel =>
      have takes : ∀ part ∈ parts, Takes (reader fuel) part.2 part.1.StopsAt
          (·.bare = part.1) := by
        intro part member
        have short := length_le_flatten_of_mem member
        exact complete part member fuel (by omega)
      have count := length_le_flatten each
      have bodies := blockBody_takes each takes (show parts.length < fuel by omega)
      refine Takes.dispatch (blockFrom (reader fuel) fuel) (fun _ _ => rfl) fun start => ?_
      unfold blockFrom
      refine bodies.last (fun _ _ => trivial) ?_
      rintro ⟨body, close⟩ isBody
      refine Takes.pure ?_
      rw [bare, isBody]

theorem condition_takes {test : Expr} {tokens back : List Token}
    (tests : (Phrase.whole test).Derives tokens) {depth : Nat} (deep : tokens.length < depth)
    {next : Expr → Reader Stmt} {admits : Option Token → Prop} {good : Stmt → Prop}
    (after : ∀ tree, tree.bare = test → Takes (next tree) back admits good) :
    Takes (condition (Expr.reader depth) >>= next)
      (.symbol .openParen :: (tokens ++ .symbol .closeParen :: back)) admits good := by
  have whole : Takes (condition (Expr.reader depth))
      (.symbol .openParen :: (tokens ++ [.symbol .closeParen])) (fun _ => True)
      (·.bare = test) := by
    unfold condition
    refine Takes.expect fun start => ?_
    refine (tests.complete depth deep).bind ?_ fun tree isTree => ?_
    · intro token _
      exact EndsBefore.of_some (by decide)
    · exact Takes.expect fun close => Takes.pure isTree
  have takes := whole.bind (fun _ _ => trivial) after
  simpa using takes

theorem Complete.branch {condition : Expr} {thenBranch : Stmt} {test body : List Token}
    (tests : (Phrase.whole condition).Derives test) (runs : Complete body thenBranch) :
    Complete (.keyword .«if» :: .symbol .openParen :: (test ++ .symbol .closeParen :: body))
      (.branch default condition thenBranch none) := by
  intro fuel deep
  simp only [List.length_cons, List.length_append] at deep
  cases fuel with
  | zero => omega
  | succ fuel =>
      have bodies := runs fuel (by omega)
      refine Takes.dispatch (branchFrom (Expr.reader fuel) (reader fuel)) (fun _ _ => rfl)
        fun start => ?_
      refine condition_takes tests (by omega) fun tree isTree => ?_
      refine bodies.last ?_ fun read isRead => ?_
      · intro token stops _
        exact stops rfl
      · refine Takes.pass ?_ (Takes.pure ?_)
        · intro token stops
          exact stops rfl
        · rw [bare, isTree, isRead]

theorem Complete.alternative {condition : Expr} {thenBranch elseBranch : Stmt}
    {test body other : List Token} (tests : (Phrase.whole condition).Derives test)
    (runs : Complete body thenBranch) (closed : thenBranch.endsOpen = false)
    (otherwise : Complete other elseBranch) :
    Complete (.keyword .«if» :: .symbol .openParen ::
        (test ++ .symbol .closeParen :: (body ++ .keyword .«else» :: other)))
      (.branch default condition thenBranch (some elseBranch)) := by
  intro fuel deep
  simp only [List.length_cons, List.length_append] at deep
  cases fuel with
  | zero => omega
  | succ fuel =>
      have bodies := runs fuel (by omega)
      have others := otherwise fuel (by omega)
      refine Takes.dispatch (branchFrom (Expr.reader fuel) (reader fuel)) (fun _ _ => rfl)
        fun start => ?_
      refine condition_takes tests (by omega) fun tree isTree => ?_
      refine bodies.bind ?_ fun read isRead => ?_
      · intro token _ opens
        rw [closed] at opens
        cases opens
      · refine Takes.accept? fun span => ?_
        refine others.last (fun token stops => stops) fun second isSecond => ?_
        refine Takes.pure ?_
        rw [bare, isTree, isRead, isSecond]

theorem Complete.whileLoop {condition : Expr} {body : Stmt} {test tokens : List Token}
    (tests : (Phrase.whole condition).Derives test) (runs : Complete tokens body) :
    Complete (.keyword .«while» :: .symbol .openParen :: (test ++ .symbol .closeParen :: tokens))
      (.whileLoop default condition body) := by
  intro fuel deep
  simp only [List.length_cons, List.length_append] at deep
  cases fuel with
  | zero => omega
  | succ fuel =>
      have bodies := runs fuel (by omega)
      refine Takes.dispatch (whileFrom (Expr.reader fuel) (reader fuel)) (fun _ _ => rfl)
        fun start => ?_
      refine condition_takes tests (by omega) fun tree isTree => ?_
      refine bodies.last (fun token stops => stops) fun read isRead => ?_
      refine Takes.pure ?_
      rw [bare, isTree, isRead]

theorem opensStatement_rank {token : Token} (opens : token.opensStatement = true) :
    token.rank = 7 := by
  cases token with
  | symbol mark =>
      cases mark <;> cases opens
      rfl
  | _ => rfl

theorem Complete.forLoop {name : String} {first last : Expr} {body : Stmt}
    {low high tokens : List Token} (starts : (Phrase.whole first).Derives low)
    (stops : (Phrase.whole last).Derives high) (derives : body.Derives tokens)
    (runs : Complete tokens body) :
    Complete (.keyword .«for» :: .identifier name :: .symbol .equal ::
        (low ++ .symbol .colon :: (high ++ tokens)))
      (.forLoop default ⟨name, default⟩ first last body) := by
  intro fuel deep
  simp only [List.length_cons, List.length_append] at deep
  cases fuel with
  | zero => omega
  | succ fuel =>
      have lows := starts.complete fuel (by omega)
      have highs := stops.complete fuel (by omega)
      have bodies := runs fuel (by omega)
      refine Takes.dispatch (forFrom (Expr.reader fuel) (reader fuel)) (fun _ _ => rfl)
        fun start => ?_
      unfold forFrom
      refine Takes.identifier fun span => ?_
      refine Takes.expect fun _ => ?_
      refine lows.bind ?_ fun lowTree isLow => ?_
      · intro token _
        exact EndsBefore.of_some (by decide)
      refine Takes.expect fun _ => ?_
      refine highs.bind ?_ fun highTree isHigh => ?_
      · intro token _
        rcases derives.opens with ⟨head, begins, opens⟩
        rw [begins, Option.some_or]
        refine EndsBefore.of_some ?_
        rw [opensStatement_rank opens]
        decide
      refine bodies.last (fun token ends => ends) fun read isRead => ?_
      refine Takes.pure ?_
      rw [bare, isLow, isHigh, isRead]

/-- The reader of statements takes what the grammar derives. -/
theorem Derives.complete {statement : Stmt} {tokens : List Token}
    (derives : statement.Derives tokens) : Complete tokens statement := by
  induction derives with
  | simple spelled => exact spelled.complete
  | block each ih => exact .block each ih
  | branch tests _ ih => exact .branch tests ih
  | alternative tests _ closed _ ih otherwise => exact .alternative tests ih closed otherwise
  | whileLoop tests _ ih => exact .whileLoop tests ih
  | forLoop starts stops runs ih => exact .forLoop starts stops runs ih

end Stmt

/-! ## Programs -/

namespace Program

theorem statements_sound {statement : Reader Stmt} (reads : Stmt.Sound statement) {fuel : Nat}
    {tokens : TokenStream} {body : List Stmt} (enough : tokens.length ≤ fuel)
    (ran : statements statement fuel tokens = .ok body) :
    Derives ⟨Stmt.bareAll body⟩ tokens.spelling := by
  have nonempty (result : Stmt) : ¬ result.bare.Derives (spelling []) := by
    intro derives
    exact derives.ne_nil rfl
  rcases statements_use reads nonempty enough ran with ⟨parts, rfl, rfl, each⟩
  refine ⟨parts.map fun part => (part.1.bare, spelling part.2), ?_, ?_, ?_⟩
  · simp [Stmt.bareAll_eq_map]
  · rw [spelling, List.map_flatten, List.map_map, List.map_map]
    rfl
  · exact List.forall_mem_map.mpr each

theorem statements_complete {statement : Reader Stmt} {parts : List (Stmt × List Token)}
    (each : ∀ part ∈ parts, part.1.Derives part.2)
    (takes : ∀ part ∈ parts, Takes statement part.2 part.1.StopsAt (·.bare = part.1))
    {fuel : Nat} (enough : parts.length ≤ fuel) {tokens : TokenStream}
    (spells : tokens.spelling = (parts.map Prod.snd).flatten) :
    ∃ body, statements statement fuel tokens = .ok body ∧
      Stmt.bareAll body = parts.map Prod.fst := by
  induction parts generalizing fuel tokens with
  | nil =>
      rw [spelling, List.map_nil, List.flatten_nil, List.map_eq_nil_iff] at spells
      subst spells
      refine ⟨[], ?_, rfl⟩
      cases fuel <;> rfl
  | cons part others ih =>
      cases fuel with
      | zero => cases enough
      | succ fuel =>
          rw [List.forall_mem_cons] at each takes
          rcases List.map_eq_append_iff.mp spells with ⟨taken, rest, rfl, takenSpells, restSpells⟩
          have stops : part.1.StopsAt (next? rest) := by
            intro _
            have after := Stmt.head?_ne_else each.2 (Option.some_ne_none _).symm
            rw [← restSpells] at after
            simpa [next?] using after
          rcases takes.1 taken rest takenSpells stops with ⟨head, ranHead, isHead⟩
          rcases ih each.2 takes.2 (Nat.le_of_succ_le_succ enough) restSpells with
            ⟨tail, ranTail, isTail⟩
          refine ⟨head :: tail, ?_, ?_⟩
          · cases whole : taken ++ rest with
            | nil =>
                rw [List.append_eq_nil_iff] at whole
                rw [whole.1] at takenSpells
                exact absurd takenSpells.symm each.1.ne_nil
            | cons token more =>
                rw [whole] at ranHead
                simp only [statements, ranHead, ranTail]
          · rw [Stmt.bareAll, isHead, isTail, List.map_cons]

/-- A stream that spells a program is read as this program, up to spans. -/
theorem ofTokens_complete {tokens : TokenStream} {program : Program}
    (derives : program.Derives tokens.spelling) :
    ∃ read, ofTokens tokens = .ok read ∧ read.bare = program := by
  rcases derives with ⟨parts, bodyIs, spells, each⟩
  have lengths : tokens.length = (parts.map Prod.snd).flatten.length := by
    rw [← spells, spelling, List.length_map]
  have takes : ∀ part ∈ parts, Takes (Stmt.reader (tokens.length + 1)) part.2
      part.1.StopsAt (·.bare = part.1) := by
    intro part member
    have short := Stmt.length_le_flatten_of_mem member
    exact (each part member).complete _ (by omega)
  have count := Stmt.length_le_flatten each
  rcases statements_complete each takes (show parts.length ≤ tokens.length by omega) spells
    with ⟨body, ran, isBody⟩
  refine ⟨⟨body⟩, ?_, ?_⟩
  · rw [ofTokens, ran]
  · rw [bare, isBody, ← bodyIs]

/-- A stream is read as a program, up to spans, just if the grammar derives the program from it. -/
theorem ofTokens_iff_derives (tokens : TokenStream) (program : Program) :
    (∃ read, ofTokens tokens = .ok read ∧ read.bare = program) ↔
      program.Derives tokens.spelling := by
  constructor
  · rintro ⟨read, ran, rfl⟩
    unfold ofTokens at ran
    split at ran
    · cases ran
    · rename_i body ranBody
      cases ran
      exact statements_sound (Stmt.reader_reads _) (Nat.le_refl _) ranBody
  · exact ofTokens_complete

end Program

end MatrixScript

import MatrixScript.TokenStream

/-!
# What readers take from a stream

Three statements about a reader compare it with a grammar.  `Reader.Uses` relates what the
reader yields to the very tokens it took.  `Reader.Reads` leaves out their spans, and is
soundness: whatever the reader yields, the tokens it took spell it.  `Reader.Takes` is
completeness: put in front of any stream that goes on in an admitted way, the tokens
are taken, all of them and no more, and the result is as wanted.

All are kept by the steps of a reader, so that a statement about a reader is
proved along its definition.
-/

namespace MatrixScript

/-- The tokens of a stream without their spans. -/
def TokenStream.spelling (tokens : TokenStream) : List Token :=
  tokens.map Located.item

/-- The next token of a stream. -/
def TokenStream.next? (tokens : TokenStream) : Option Token :=
  tokens.head?.map Located.item

namespace TokenStream

@[simp]
theorem spelling_nil : spelling [] = [] := rfl

@[simp]
theorem spelling_append (front back : TokenStream) :
    spelling (front ++ back) = spelling front ++ spelling back :=
  List.map_append

@[simp]
theorem next?_append (front back : TokenStream) :
    next? (front ++ back) = (spelling front).head?.or (next? back) := by
  cases front with
  | nil => simp [next?]
  | cons head tail => simp [next?, spelling]

end TokenStream

/-- Lists of tokens in order, with commas between them. -/
def commaSeparated : List (List Token) → List Token
  | [] => []
  | part :: parts => part ++ parts.flatMap fun part => .symbol .comma :: part

theorem commaSeparated_cons_cons (part next : List Token) (others : List (List Token)) :
    commaSeparated (part :: next :: others) =
      part ++ .symbol .comma :: commaSeparated (next :: others) :=
  rfl

theorem length_le_commaSeparated {part : List Token} {parts : List (List Token)}
    (member : part ∈ parts) : part.length ≤ (commaSeparated parts).length := by
  cases parts with
  | nil => cases member
  | cons first others =>
      rw [commaSeparated, List.length_append]
      rcases List.mem_cons.mp member with rfl | member
      · exact Nat.le_add_right _ _
      · rcases List.append_of_mem member with ⟨before, after, rfl⟩
        simp
        omega

theorem count_le_commaSeparated (parts : List (List Token)) :
    parts.length ≤ (commaSeparated parts).length + 1 := by
  cases parts with
  | nil => exact Nat.zero_le _
  | cons first others =>
      have commas : others.length ≤
          (others.flatMap fun part => Token.symbol .comma :: part).length := by
        induction others with
        | nil => exact Nat.le_refl 0
        | cons part rest ih =>
            simp only [List.flatMap_cons, List.length_append, List.length_cons]
            omega
      rw [commaSeparated, List.length_append, List.length_cons]
      omega

namespace Reader

open TokenStream

variable {α β : Type}

theorem bind_eq_ok_iff {first : Reader α} {next : α → Reader β} {tokens rest : TokenStream}
    {result : β} :
    (first >>= next) tokens = .ok (result, rest) ↔
      ∃ value middle, first tokens = .ok (value, middle) ∧
        next value middle = .ok (result, rest) := by
  show (first tokens >>= fun pair => next pair.1 pair.2) = _ ↔ _
  cases ran : first tokens with
  | error rejection =>
      constructor
      · intro impossible
        cases impossible
      · rintro ⟨value, middle, impossible, _⟩
        cases impossible
  | ok pair =>
      rcases pair with ⟨value, middle⟩
      constructor
      · intro goesOn
        exact ⟨value, middle, rfl, goesOn⟩
      · rintro ⟨_, _, ⟨⟩, goesOn⟩
        exact goesOn

theorem bind_of_ok {first : Reader α} {next : α → Reader β} {tokens middle : TokenStream}
    {value : α} (ran : first tokens = .ok (value, middle)) :
    (first >>= next) tokens = next value middle := by
  show (first tokens >>= fun pair => next pair.1 pair.2) = _
  rw [ran]
  rfl

theorem unexpected_ne_ok {expected : String} {tokens : TokenStream}
    {result : α × TokenStream} : unexpected expected tokens ≠ .ok result := by
  cases tokens <;> exact nofun

theorem accept?_eq_none_iff {wanted : Token} {tokens rest : TokenStream} :
    accept? wanted tokens = .ok (none, rest) ↔ rest = tokens ∧ next? tokens ≠ some wanted := by
  cases tokens with
  | nil => simp [accept?, next?, eq_comm]
  | cons token others =>
      by_cases same : token.item = wanted
      · simp [accept?, next?, same]
      · rw [accept?, if_neg same]
        constructor
        · rintro ⟨⟩
          exact ⟨rfl, by simpa [next?] using same⟩
        · rintro ⟨rfl, _⟩
          rfl

/-! ## Tokens that a reader takes -/

/-- Whatever the reader yields, the tokens it took account for it, spans included. -/
def Uses (reader : Reader α) (accounts : TokenStream → α → Prop) : Prop :=
  ∀ tokens result rest, reader tokens = .ok (result, rest) →
    ∃ taken, tokens = taken ++ rest ∧ accounts taken result

namespace Uses

variable {first : Reader α} {next : α → Reader β} {accounts : TokenStream → β → Prop}

theorem weaken {reader : Reader α} {accounts better : TokenStream → α → Prop}
    (uses : Uses reader accounts)
    (implies : ∀ taken result, accounts taken result → better taken result) :
    Uses reader better := by
  intro tokens result rest ran
  rcases uses tokens result rest ran with ⟨taken, split, accounted⟩
  exact ⟨taken, split, implies _ _ accounted⟩

theorem pure {result : β} (accounted : accounts [] result) :
    Uses (Pure.pure result : Reader β) accounts := by
  rintro tokens _ rest ⟨⟩
  exact ⟨[], rfl, accounted⟩

theorem unexpected (expected : String) : Uses (Reader.unexpected expected) accounts := by
  intro tokens result rest ran
  exact absurd ran unexpected_ne_ok

theorem reject (message : String) : Uses (Reader.reject message) accounts := by
  intro tokens result rest ran
  cases ran

theorem rejectAt (message : String) (span : Span) :
    Uses (Reader.rejectAt message span) accounts := by
  intro tokens result rest ran
  cases ran

/-- The second reader accounts for what remains once the first has taken its tokens. -/
theorem bind {before : TokenStream → α → Prop} (firstUses : Uses first before)
    (nextUses : ∀ front value, before front value →
      Uses (next value) fun back result => accounts (front ++ back) result) :
    Uses (first >>= next) accounts := by
  intro tokens result rest ran
  rcases bind_eq_ok_iff.mp ran with ⟨value, middle, ranFirst, ranNext⟩
  rcases firstUses tokens value middle ranFirst with ⟨front, rfl, accounted⟩
  rcases nextUses front value accounted middle result rest ranNext with ⟨back, rfl, whole⟩
  exact ⟨front ++ back, by simp, whole⟩

theorem accept? {wanted : Token} {next : Option Span → Reader β}
    (taken : ∀ span, Uses (next (some span)) fun tokens => accounts (⟨wanted, span⟩ :: tokens))
    (left : Uses (next none) accounts) : Uses (Reader.accept? wanted >>= next) accounts := by
  intro tokens result rest ran
  rcases bind_eq_ok_iff.mp ran with ⟨value, middle, accepted, goesOn⟩
  cases tokens with
  | nil =>
      cases accepted
      exact left _ _ _ goesOn
  | cons token others =>
      rw [Reader.accept?] at accepted
      split at accepted
      · rename_i same
        cases accepted
        rcases taken _ _ _ _ goesOn with ⟨used, rfl, accounted⟩
        refine ⟨token :: used, rfl, ?_⟩
        rw [← same] at accounted
        exact accounted
      · cases accepted
        exact left _ _ _ goesOn

theorem acceptSymbol? {meaning : Symbol → Option α} {next : Option α → Reader β}
    (taken : ∀ symbol value span, meaning symbol = some value →
      Uses (next (some value)) fun tokens => accounts (⟨.symbol symbol, span⟩ :: tokens))
    (left : Uses (next none) accounts) :
    Uses (Reader.acceptSymbol? meaning >>= next) accounts := by
  intro tokens result rest ran
  rcases bind_eq_ok_iff.mp ran with ⟨value, middle, accepted, goesOn⟩
  cases tokens with
  | nil =>
      cases accepted
      exact left _ _ _ goesOn
  | cons token others =>
      rcases token with ⟨item, span⟩
      cases item with
      | symbol mark =>
          simp only [Reader.acceptSymbol?] at accepted
          split at accepted
          · rename_i value means
            cases accepted
            rcases taken mark value span means _ _ _ goesOn with ⟨used, rfl, accounted⟩
            exact ⟨⟨.symbol mark, span⟩ :: used, rfl, accounted⟩
          · cases accepted
            exact left _ _ _ goesOn
      | _ =>
          cases accepted
          exact left _ _ _ goesOn

theorem expect {wanted : Token} {next : Span → Reader β}
    (taken : ∀ span, Uses (next span) fun tokens => accounts (⟨wanted, span⟩ :: tokens)) :
    Uses (Reader.expect wanted >>= next) accounts := by
  have whole : Uses (Reader.expect wanted) fun tokens span => tokens = [⟨wanted, span⟩] :=
    accept? (fun span => pure rfl) (unexpected _)
  refine whole.bind ?_
  rintro _ span rfl
  exact taken span

theorem identifier {next : Located String → Reader β}
    (taken : ∀ name span, Uses (next ⟨name, span⟩) fun tokens =>
      accounts (⟨.identifier name, span⟩ :: tokens)) :
    Uses (Reader.identifier >>= next) accounts := by
  intro tokens result rest ran
  rcases bind_eq_ok_iff.mp ran with ⟨value, middle, ranFirst, goesOn⟩
  unfold Reader.identifier at ranFirst
  split at ranFirst
  · cases ranFirst
    rcases taken _ _ _ _ _ goesOn with ⟨used, rfl, accounted⟩
    exact ⟨_ :: used, rfl, accounted⟩
  · exact absurd ranFirst unexpected_ne_ok

/-- Looking ahead takes nothing; what is taken next begins with the token seen. -/
theorem peek? {next : Option Token → Reader β}
    (seen : ∀ token, Uses (next token) fun tokens result =>
      (∀ head ∈ (spelling tokens).head?, token = some head) → accounts tokens result) :
    Uses (Reader.peek? >>= next) accounts := by
  intro tokens result rest ran
  rcases bind_eq_ok_iff.mp ran with ⟨_, _, ⟨⟩, goesOn⟩
  rcases seen _ _ _ _ goesOn with ⟨used, rfl, accounted⟩
  refine ⟨used, rfl, accounted ?_⟩
  intro head begins
  cases used with
  | nil => cases begins
  | cons token others =>
      cases begins
      rfl

end Uses

/-! ## Soundness -/

/-- Whatever the reader yields, the tokens it took derive it. -/
def Reads (reader : Reader α) (derives : List Token → α → Prop) : Prop :=
  ∀ tokens result rest, reader tokens = .ok (result, rest) →
    ∃ taken, tokens = taken ++ rest ∧ derives (spelling taken) result

namespace Reads

variable {first : Reader α} {next : α → Reader β} {derives : List Token → β → Prop}

theorem weaken {reader : Reader α} {spelled derives : List Token → α → Prop}
    (reads : Reads reader spelled)
    (implies : ∀ tokens result, spelled tokens result → derives tokens result) :
    Reads reader derives :=
  Uses.weaken reads fun _ => implies _

theorem pure {result : β} (spells : derives [] result) :
    Reads (Pure.pure result : Reader β) derives :=
  Uses.pure spells

theorem unexpected (expected : String) : Reads (Reader.unexpected expected) derives :=
  Uses.unexpected expected

theorem reject (message : String) : Reads (Reader.reject message) derives :=
  Uses.reject message

theorem rejectAt (message : String) (span : Span) :
    Reads (Reader.rejectAt message span) derives :=
  Uses.rejectAt message span

/-- The second reader spells what remains once the first has taken its tokens. -/
theorem bind {spelled : List Token → α → Prop} (before : Reads first spelled)
    (after : ∀ front value, spelled front value →
      Reads (next value) fun back result => derives (front ++ back) result) :
    Reads (first >>= next) derives := by
  refine Uses.bind before fun front value spells => ?_
  refine Uses.weaken (after _ value spells) fun back result derived => ?_
  rw [spelling_append]
  exact derived

theorem accept? {wanted : Token} {next : Option Span → Reader β}
    (taken : ∀ span, Reads (next (some span)) fun tokens => derives (wanted :: tokens))
    (left : Reads (next none) derives) : Reads (Reader.accept? wanted >>= next) derives :=
  Uses.accept? taken left

theorem acceptSymbol? {meaning : Symbol → Option α} {next : Option α → Reader β}
    (taken : ∀ symbol value, meaning symbol = some value →
      Reads (next (some value)) fun tokens => derives (.symbol symbol :: tokens))
    (left : Reads (next none) derives) :
    Reads (Reader.acceptSymbol? meaning >>= next) derives :=
  Uses.acceptSymbol? (fun symbol value _ => taken symbol value) left

theorem expect {wanted : Token} {next : Span → Reader β}
    (taken : ∀ span, Reads (next span) fun tokens => derives (wanted :: tokens)) :
    Reads (Reader.expect wanted >>= next) derives :=
  Uses.expect taken

theorem identifier {next : Located String → Reader β}
    (taken : ∀ name span, Reads (next ⟨name, span⟩) fun tokens =>
      derives (.identifier name :: tokens)) :
    Reads (Reader.identifier >>= next) derives :=
  Uses.identifier taken

/-- Looking ahead takes nothing; what is taken next begins with the token seen. -/
theorem peek? {next : Option Token → Reader β}
    (seen : ∀ token, Reads (next token) fun tokens result =>
      (∀ head ∈ tokens.head?, token = some head) → derives tokens result) :
    Reads (Reader.peek? >>= next) derives :=
  Uses.peek? seen

end Reads

/-- What the reader yields agrees with the token that it leaves next. -/
def Leaves (reader : Reader α) (agrees : α → Option Token → Prop) : Prop :=
  ∀ tokens result rest, reader tokens = .ok (result, rest) → agrees result (next? rest)

namespace Leaves

variable {first : Reader α} {next : α → Reader β} {agrees : β → Option Token → Prop}

theorem bind (after : ∀ value, Leaves (next value) agrees) : Leaves (first >>= next) agrees := by
  intro tokens result rest ran
  rcases bind_eq_ok_iff.mp ran with ⟨value, middle, _, goesOn⟩
  exact after value middle result rest goesOn

theorem map {build : α → β}
    (before : Leaves first fun value token => agrees (build value) token) :
    Leaves (first >>= fun value => Pure.pure (build value)) agrees := by
  intro tokens result rest ran
  rcases bind_eq_ok_iff.mp ran with ⟨value, middle, ranFirst, ⟨⟩⟩
  exact before tokens value rest ranFirst

/-- A token that was not accepted is not the next one. -/
theorem accept? {wanted : Token} {build : Span → Reader β} {otherwise : β}
    (taken : ∀ span, Leaves (build span) agrees)
    (left : ∀ token, token ≠ some wanted → agrees otherwise token) :
    Leaves (Reader.accept? wanted >>= fun
      | some span => build span
      | none => Pure.pure otherwise) agrees := by
  intro tokens result rest ran
  rcases bind_eq_ok_iff.mp ran with ⟨value, middle, accepted, goesOn⟩
  cases value with
  | some span => exact taken span middle result rest goesOn
  | none =>
      cases goesOn
      rcases accept?_eq_none_iff.mp accepted with ⟨rfl, differs⟩
      exact left _ differs

end Leaves

/-- A token behind a result that never leaves it next is not accepted. -/
theorem Reads.bindAccept? {first : Reader α} {wanted : Token} {next : α → Option Span → Reader β}
    {spelled : List Token → α → Prop} {derives : List Token → β → Prop} {isOpen : α → Prop}
    (before : Reads first spelled)
    (leaves : Leaves first fun value token => isOpen value → token ≠ some wanted)
    (taken : ∀ front value, spelled front value → ¬ isOpen value → ∀ span,
      Reads (next value (some span)) fun back => derives (front ++ wanted :: back))
    (left : ∀ front value, spelled front value →
      Reads (next value none) fun back => derives (front ++ back)) :
    Reads (first >>= fun value => Reader.accept? wanted >>= next value) derives := by
  intro tokens result rest ran
  rcases bind_eq_ok_iff.mp ran with ⟨value, middle, ranFirst, goesOn⟩
  rcases before tokens value middle ranFirst with ⟨front, rfl, spells⟩
  have after : ∃ back, middle = back ++ rest ∧
      derives (spelling front ++ spelling back) result := by
    by_cases opens : isOpen value
    · have differs := leaves _ value middle ranFirst opens
      rw [bind_of_ok (accept?_eq_none_iff.mpr ⟨rfl, differs⟩)] at goesOn
      exact left _ value spells middle result rest goesOn
    · have reads : Reads (Reader.accept? wanted >>= next value) fun back =>
          derives (spelling front ++ back) :=
        Reads.accept? (taken _ value spells opens) (left _ value spells)
      exact reads middle result rest goesOn
  rcases after with ⟨back, rfl, derived⟩
  refine ⟨front ++ back, by simp, ?_⟩
  rw [spelling_append]
  exact derived

/-! ## Completeness -/

/--
In front of a stream that goes on with an admitted token, the reader takes tokens of
just this spelling, and yields a good result.
-/
def Takes (reader : Reader α) (spelled : List Token) (admits : Option Token → Prop)
    (good : α → Prop) : Prop :=
  ∀ taken rest, spelling taken = spelled → admits (next? rest) →
    ∃ result, reader (taken ++ rest) = .ok (result, rest) ∧ good result

namespace Takes

variable {first : Reader α} {next : α → Reader β} {spelled : List Token}
  {admits : Option Token → Prop} {good : β → Prop}

theorem weaken {reader : Reader α} {admits more : Option Token → Prop} {good better : α → Prop}
    (takes : Takes reader spelled admits good) (fewer : ∀ token, more token → admits token)
    (implies : ∀ result, good result → better result) : Takes reader spelled more better := by
  intro taken rest spells goesOn
  rcases takes taken rest spells (fewer _ goesOn) with ⟨result, ran, isGood⟩
  exact ⟨result, ran, implies result isGood⟩

theorem pure {result : β} (isGood : good result) :
    Takes (Pure.pure result : Reader β) [] admits good := by
  intro taken rest spells _
  rw [spelling, List.map_eq_nil_iff] at spells
  subst spells
  exact ⟨result, rfl, isGood⟩

/-- The second reader goes on in an admitted way for the first. -/
theorem bind {front back : List Token} {between : Option Token → Prop} {fine : α → Prop}
    (before : Takes first front between fine)
    (follows : ∀ token, admits token → between (back.head?.or token))
    (after : ∀ value, fine value → Takes (next value) back admits good) :
    Takes (first >>= next) (front ++ back) admits good := by
  intro taken rest spells goesOn
  rcases List.map_eq_append_iff.mp spells with ⟨frontTaken, backTaken, rfl, frontSpells, backSpells⟩
  have ahead : between (next? (backTaken ++ rest)) := by
    rw [next?_append, spelling, backSpells]
    exact follows _ goesOn
  rcases before frontTaken (backTaken ++ rest) frontSpells ahead with ⟨value, ran, isFine⟩
  rcases after value isFine backTaken rest backSpells goesOn with ⟨result, ranNext, isGood⟩
  refine ⟨result, ?_, isGood⟩
  rw [List.append_assoc, bind_of_ok ran, ranNext]

/-- The second reader takes nothing more. -/
theorem last {between : Option Token → Prop} {fine : α → Prop}
    (before : Takes first spelled between fine)
    (follows : ∀ token, admits token → between token)
    (after : ∀ value, fine value → Takes (next value) [] admits good) :
    Takes (first >>= next) spelled admits good := by
  rw [← List.append_nil spelled]
  exact before.bind follows after

/-- A reader that goes on as its first token says. -/
theorem dispatch {reader : Reader β} {token : Token} (next : Span → Reader β)
    (dispatches : ∀ span rest, reader (⟨token, span⟩ :: rest) = next span rest)
    (after : ∀ span, Takes (next span) spelled admits good) :
    Takes reader (token :: spelled) admits good := by
  intro taken rest spells goesOn
  rcases List.map_eq_cons_iff.mp spells with ⟨⟨item, span⟩, others, rfl, same, othersSpell⟩
  cases same
  rcases after span others rest othersSpell goesOn with ⟨result, ran, isGood⟩
  exact ⟨result, (dispatches span (others ++ rest)).trans ran, isGood⟩

theorem accept? {wanted : Token} {next : Option Span → Reader β}
    (after : ∀ span, Takes (next (some span)) spelled admits good) :
    Takes (Reader.accept? wanted >>= next) (wanted :: spelled) admits good := by
  intro taken rest spells goesOn
  rcases List.map_eq_cons_iff.mp spells with ⟨token, others, rfl, rfl, othersSpell⟩
  rcases after token.span others rest othersSpell goesOn with ⟨result, ran, isGood⟩
  have accepted : Reader.accept? token.item (token :: (others ++ rest)) =
      .ok (some token.span, others ++ rest) := by
    rw [Reader.accept?, if_pos rfl]
  exact ⟨result, (bind_of_ok accepted).trans ran, isGood⟩

theorem acceptSymbol? {meaning : Symbol → Option α} {next : Option α → Reader β}
    {symbol : Symbol} {value : α} (means : meaning symbol = some value)
    (after : Takes (next (some value)) spelled admits good) :
    Takes (Reader.acceptSymbol? meaning >>= next) (.symbol symbol :: spelled) admits good := by
  intro taken rest spells goesOn
  rcases List.map_eq_cons_iff.mp spells with ⟨⟨item, span⟩, others, rfl, same, othersSpell⟩
  cases same
  rcases after others rest othersSpell goesOn with ⟨result, ran, isGood⟩
  have accepted : Reader.acceptSymbol? meaning (⟨.symbol symbol, span⟩ :: (others ++ rest)) =
      .ok (some value, others ++ rest) := by
    simp only [Reader.acceptSymbol?, means]
  exact ⟨result, (bind_of_ok accepted).trans ran, isGood⟩

theorem expect {wanted : Token} {next : Span → Reader β}
    (after : ∀ span, Takes (next span) spelled admits good) :
    Takes (Reader.expect wanted >>= next) (wanted :: spelled) admits good := by
  have whole : Takes (Reader.expect wanted) ([wanted] ++ []) (fun _ => True) fun _ => True :=
    accept? fun span => pure trivial
  exact whole.bind (fun _ _ => trivial) fun span _ => after span

theorem identifier {name : String} {next : Located String → Reader β}
    (after : ∀ span, Takes (next ⟨name, span⟩) spelled admits good) :
    Takes (Reader.identifier >>= next) (.identifier name :: spelled) admits good := by
  intro taken rest spells goesOn
  rcases List.map_eq_cons_iff.mp spells with ⟨⟨item, span⟩, others, rfl, same, othersSpell⟩
  cases same
  rcases after span others rest othersSpell goesOn with ⟨result, ran, isGood⟩
  have accepted : Reader.identifier (⟨.identifier name, span⟩ :: (others ++ rest)) =
      .ok (⟨name, span⟩, others ++ rest) := rfl
  exact ⟨result, (bind_of_ok accepted).trans ran, isGood⟩

/-- The token looked at is the first one to take, or else the one behind. -/
theorem peek? {next : Option Token → Reader β}
    (after : ∀ token, admits token → Takes (next (spelled.head?.or token)) spelled admits good) :
    Takes (Reader.peek? >>= next) spelled admits good := by
  intro taken rest spells goesOn
  rcases after _ goesOn taken rest spells goesOn with ⟨result, ran, isGood⟩
  have seen : Reader.peek? (taken ++ rest) =
      .ok (spelled.head?.or (next? rest), taken ++ rest) := by
    rw [← spells, ← next?_append]
    rfl
  exact ⟨result, (bind_of_ok seen).trans ran, isGood⟩

/-- A token that does not come next is not accepted. -/
theorem pass {wanted : Token} {next : Option Span → Reader β}
    (differs : ∀ token, admits token → spelled.head?.or token ≠ some wanted)
    (after : Takes (next none) spelled admits good) :
    Takes (Reader.accept? wanted >>= next) spelled admits good := by
  intro taken rest spells goesOn
  rcases after taken rest spells goesOn with ⟨result, ran, isGood⟩
  have notNext : next? (taken ++ rest) ≠ some wanted := by
    rw [next?_append, spells]
    exact differs _ goesOn
  have passed : Reader.accept? wanted (taken ++ rest) = .ok (none, taken ++ rest) :=
    accept?_eq_none_iff.mpr ⟨rfl, notNext⟩
  exact ⟨result, (bind_of_ok passed).trans ran, isGood⟩

/-- A symbol without a meaning is not accepted. -/
theorem passSymbol {meaning : Symbol → Option α} {next : Option α → Reader β}
    (meaningless : ∀ token, admits token → ∀ symbol,
      spelled.head?.or token = some (.symbol symbol) → meaning symbol = none)
    (after : Takes (next none) spelled admits good) :
    Takes (Reader.acceptSymbol? meaning >>= next) spelled admits good := by
  intro taken rest spells goesOn
  rcases after taken rest spells goesOn with ⟨result, ran, isGood⟩
  have meansNothing : ∀ symbol, next? (taken ++ rest) = some (.symbol symbol) →
      meaning symbol = none := by
    rw [next?_append, spells]
    exact meaningless _ goesOn
  have passed : Reader.acceptSymbol? meaning (taken ++ rest) = .ok (none, taken ++ rest) := by
    cases ahead : taken ++ rest with
    | nil => rfl
    | cons token others =>
        rcases token with ⟨item, span⟩
        rw [ahead] at meansNothing
        cases item with
        | symbol mark => simp only [Reader.acceptSymbol?, meansNothing mark rfl]
        | _ => rfl
  exact ⟨result, (bind_of_ok passed).trans ran, isGood⟩

end Takes

/-! ## The last token taken -/

/-- What was taken in front of the rest of a stream. -/
theorem take_of_append (taken rest : TokenStream) :
    (taken ++ rest).take ((taken ++ rest).length - rest.length) = taken := by
  rw [List.length_append, Nat.add_sub_cancel, List.take_left]

theorem tracked_of_ok {reader : Reader α} {taken rest : TokenStream} {result : α}
    (ran : reader (taken ++ rest) = .ok (result, rest)) (before : Span) :
    tracked before reader (taken ++ rest) = .ok ((result, taken.lastSpan before), rest) := by
  rw [tracked, ran]
  simp only [take_of_append]

/-- A reader that is tracked takes what it takes anyway. -/
theorem ok_of_tracked {reader : Reader α} {before : Span} {tokens rest : TokenStream}
    {result : α × Span} (ran : tracked before reader tokens = .ok (result, rest)) :
    reader tokens = .ok (result.1, rest) := by
  rw [tracked] at ran
  split at ran
  · cases ran
  · rename_i value left read
    cases ran
    exact read

theorem Uses.tracked {reader : Reader α} {accounts : TokenStream → α → Prop}
    (uses : Uses reader accounts) (before : Span) :
    Uses (tracked before reader) fun taken result =>
      accounts taken result.1 ∧ result.2 = taken.lastSpan before := by
  rintro tokens ⟨result, last⟩ rest ran
  have read : reader tokens = .ok (result, rest) := ok_of_tracked ran
  rcases uses tokens result rest read with ⟨taken, rfl, accounted⟩
  rw [tracked_of_ok read] at ran
  cases ran
  exact ⟨taken, rfl, accounted, rfl⟩

theorem Reads.tracked {reader : Reader α} {derives : List Token → α → Prop}
    (reads : Reads reader derives) (before : Span) :
    Reads (tracked before reader) fun tokens result => derives tokens result.1 :=
  Uses.weaken (Uses.tracked reads before) fun _ _ accounted => accounted.1

theorem Takes.tracked {reader : Reader α} {spelled : List Token} {admits : Option Token → Prop}
    {good : α → Prop} (takes : Takes reader spelled admits good) (before : Span) :
    Takes (tracked before reader) spelled admits fun result => good result.1 := by
  intro taken rest spells goesOn
  rcases takes taken rest spells goesOn with ⟨result, ran, isGood⟩
  exact ⟨_, tracked_of_ok ran before, isGood⟩

/-! ## Lists of items -/

/-- The tokens consist of parts with commas between them, which spell the list. -/
structure Listed {γ : Type} (spells : List Token → γ → Prop) (parts : List (γ × List Token))
    (tokens : List Token) (list : List γ) : Prop where
  tokens : tokens = commaSeparated (parts.map Prod.snd)
  list : list = parts.map Prod.fst
  each : ∀ part ∈ parts, spells part.2 part.1

theorem Reads.moreItems {γ : Type} {item : Reader α} (strip : α → γ)
    (spells : List Token → γ → Prop)
    (reads : Reads item fun tokens result => spells tokens (strip result)) (fuel : Nat) :
    Reads (Reader.moreItems item fuel) fun tokens list =>
      ∃ parts : List (γ × List Token),
        tokens = parts.flatMap (fun part => .symbol .comma :: part.2) ∧
        list.map strip = parts.map Prod.fst ∧ ∀ part ∈ parts, spells part.2 part.1 := by
  induction fuel with
  | zero => exact pure ⟨[], rfl, rfl, nofun⟩
  | succ fuel ih =>
      rw [Reader.moreItems]
      refine accept? (fun span => ?_) (pure ⟨[], rfl, rfl, nofun⟩)
      refine reads.bind fun front head headSpells => ?_
      refine ih.bind ?_
      rintro back tail ⟨parts, rfl, tailIs, each⟩
      refine pure ⟨(strip head, front) :: parts, by simp, ?_, ?_⟩
      · rw [List.map_cons, tailIs, List.map_cons]
      · exact List.forall_mem_cons.mpr ⟨headSpells, each⟩

theorem Reads.items {γ : Type} {item : Reader α} (strip : α → γ)
    (spells : List Token → γ → Prop)
    (reads : Reads item fun tokens result => spells tokens (strip result)) (fuel : Nat) :
    Reads (Reader.items item fuel) fun tokens list =>
      ∃ parts, parts ≠ [] ∧ Listed spells parts tokens (list.map strip) := by
  rw [Reader.items]
  refine reads.bind fun front head headSpells => ?_
  refine (moreItems strip spells reads fuel).bind ?_
  rintro back tail ⟨parts, rfl, tailIs, each⟩
  refine pure ⟨(strip head, front) :: parts, List.cons_ne_nil _ _, ?_, ?_, ?_⟩
  · simp [commaSeparated, List.flatMap_map]
  · rw [List.map_cons, tailIs, List.map_cons]
  · exact List.forall_mem_cons.mpr ⟨headSpells, each⟩

theorem Reads.itemsUntil {γ : Type} {item : Reader α} (strip : α → γ)
    (spells : List Token → γ → Prop)
    (reads : Reads item fun tokens result => spells tokens (strip result)) (fuel : Nat)
    (close : Symbol) :
    Reads (Reader.itemsUntil item fuel close) fun tokens result =>
      ∃ parts inside, tokens = inside ++ [.symbol close] ∧
        Listed spells parts inside (result.1.map strip) := by
  rw [Reader.itemsUntil]
  refine accept? (fun span => pure ⟨[], [], rfl, rfl, rfl, nofun⟩) ?_
  refine (items strip spells reads fuel).bind ?_
  rintro inside list ⟨parts, _, listed⟩
  refine expect fun span => pure ?_
  exact ⟨parts, inside, rfl, listed⟩

/-- The items are taken in order, if a comma or the end may follow each. -/
theorem Takes.moreItems {γ : Type} {item : Reader α} {strip : α → γ}
    {between admits : Option Token → Prop} (comma : between (some (.symbol .comma)))
    (ends : ∀ token, admits token → between token ∧ token ≠ some (.symbol .comma))
    {parts : List (γ × List Token)}
    (each : ∀ part ∈ parts, Takes item part.2 between fun result => strip result = part.1)
    {fuel : Nat} (enough : parts.length ≤ fuel) :
    Takes (Reader.moreItems item fuel) (parts.flatMap fun part => .symbol .comma :: part.2)
      admits fun list => list.map strip = parts.map Prod.fst := by
  induction parts generalizing fuel with
  | nil =>
      cases fuel with
      | zero => exact pure rfl
      | succ fuel =>
          rw [Reader.moreItems]
          exact pass (fun token goesOn => (ends token goesOn).2) (pure rfl)
  | cons part parts ih =>
      cases fuel with
      | zero => exact absurd enough (Nat.not_succ_le_zero _)
      | succ fuel =>
          rw [List.forall_mem_cons] at each
          rw [Reader.moreItems, List.flatMap_cons, List.cons_append]
          refine accept? fun span => ?_
          refine each.1.bind ?_ fun head headIs => ?_
          · intro token goesOn
            cases parts with
            | nil => exact (ends token goesOn).1
            | cons next others => exact comma
          · refine (ih each.2 (Nat.le_of_succ_le_succ enough)).last
              (fun token goesOn => goesOn) fun tail tailIs => ?_
            refine pure ?_
            rw [List.map_cons, List.map_cons, headIs, tailIs]

theorem Takes.items {γ : Type} {item : Reader α} {strip : α → γ}
    {between admits : Option Token → Prop} (comma : between (some (.symbol .comma)))
    (ends : ∀ token, admits token → between token ∧ token ≠ some (.symbol .comma))
    {parts : List (γ × List Token)} (some_ : parts ≠ [])
    (each : ∀ part ∈ parts, Takes item part.2 between fun result => strip result = part.1)
    {fuel : Nat} (enough : parts.length ≤ fuel + 1) :
    Takes (Reader.items item fuel) (commaSeparated (parts.map Prod.snd)) admits
      fun list => list.map strip = parts.map Prod.fst := by
  cases parts with
  | nil => exact absurd rfl some_
  | cons part parts =>
      rw [List.forall_mem_cons] at each
      rw [Reader.items, List.map_cons, commaSeparated, List.flatMap_map]
      refine each.1.bind ?_ fun head headIs => ?_
      · intro token goesOn
        cases parts with
        | nil => exact (ends token goesOn).1
        | cons next others => exact comma
      · refine (Takes.moreItems comma ends each.2 (Nat.le_of_succ_le_succ enough)).last
          (fun token goesOn => goesOn) fun tail tailIs => ?_
        refine pure ?_
        rw [List.map_cons, List.map_cons, headIs, tailIs]

theorem Takes.itemsUntil {γ : Type} {item : Reader α} {strip : α → γ} {close : Symbol}
    {between : Option Token → Prop} (comma : between (some (.symbol .comma)))
    (closes : between (some (.symbol close))) (notComma : close ≠ .comma)
    {parts : List (γ × List Token)}
    (heads : ∀ part ∈ parts, ∃ head ∈ part.2.head?, head ≠ .symbol close)
    (each : ∀ part ∈ parts, Takes item part.2 between fun result => strip result = part.1)
    {fuel : Nat} (enough : parts.length ≤ fuel + 1) :
    Takes (Reader.itemsUntil item fuel close)
      (commaSeparated (parts.map Prod.snd) ++ [.symbol close]) (fun _ => True)
      fun result => result.1.map strip = parts.map Prod.fst := by
  rw [Reader.itemsUntil]
  cases parts with
  | nil => exact accept? fun span => pure rfl
  | cons part others =>
      have ends : ∀ token, token = some (.symbol close) →
          between token ∧ token ≠ some (.symbol .comma) := by
        rintro token rfl
        refine ⟨closes, ?_⟩
        simpa using notComma
      have start : ∃ head, (commaSeparated ((part :: others).map Prod.snd)).head? = some head ∧
          head ≠ .symbol close := by
        rcases heads part List.mem_cons_self with ⟨head, begins, differs⟩
        refine ⟨head, ?_, differs⟩
        simp [commaSeparated, Option.mem_def.mp begins]
      rcases start with ⟨head, begins, differs⟩
      refine pass ?_ ?_
      · intro token goesOn
        rw [List.head?_append, begins]
        simpa using differs
      · have whole := Takes.items comma ends (List.cons_ne_nil part others) each enough
        refine whole.bind (fun token goesOn => rfl) fun list listIs => ?_
        exact expect fun span => pure listIs

end Reader

end MatrixScript

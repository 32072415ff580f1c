import Mathlib.Data.List.Forall2
import MatrixScript.Proofs.Places
import MatrixScript.Proofs.Text.ByteOrder

/-!
# Histories of memory

A memory starts with one empty frame; then frames are pushed and popped, and places are
written, in any order and with or without success.

The ledger of such a history has a log for each frame on the stack.  A log tells what was
written to its frame, from the variables that the frame was pushed with to the latest
write.  It says of a variable which value was given to it last, as a whole, and which of
its slots were written since then.  After every history each frame holds what its log
says, so that a look-up finds what the log of the innermost frame with the variable says.
-/

namespace MatrixScript.Memory

/-- What can be done to a memory. -/
inductive Action where
  | push (frame : Frame)
  | pop
  | insert (place : Place) (value : Value)
  | set (place : Place) (value : Value)

/-- What an action leaves, also when it is a write that fails. -/
def step (memory : Memory) : Action → Memory
  | .push frame => memory.push frame
  | .pop => memory.pop
  | .insert place value => (memory.declare place value).left
  | .set place value => (memory.store place value).left

/-! ## Ledgers -/

/-- A value, and the place that it was written to. -/
structure Write where
  place : Place
  value : Value

/-- The innermost frame that has a variable; the top frame, if none has it. -/
def owner (memory : Memory) (name : String) : Nat :=
  (memory.frames.findIdx? fun frame => frame.contains name).getD 0

/-- The frame in which a place is declared: a slot belongs where its variable lives. -/
def declaring (memory : Memory) : Place → Nat
  | .var _ => 0
  | .slot name _ => memory.owner name

/-- Log a write at a frame, unless it met a fault. -/
def log (ledger : List (List Write)) (index : Nat) (write : Write) :
    Option Fault → List (List Write)
  | none => ledger.modify index (· ++ [write])
  | some _ => ledger

/-- The ledger after an action on a memory. -/
def book (memory : Memory) (ledger : List (List Write)) : Action → List (List Write)
  | .push frame => (frame.entries.map fun entry => ⟨.var entry.1, entry.2⟩) :: ledger
  | .pop => if memory.pop?.isSome then ledger.tail else ledger
  | .insert place value =>
      log ledger (memory.declaring place) ⟨place, value⟩ (memory.declare place value).fault?
  | .set place value =>
      log ledger (memory.owner place.name) ⟨place, value⟩ (memory.store place value).fault?

/-- A memory and its ledger. -/
structure History where
  memory : Memory
  ledger : List (List Write)

/-- The history of a memory to which nothing was done. -/
def History.start : History := ⟨root, [[]]⟩

/-- A history with one more action. -/
def History.next (history : History) (action : Action) : History :=
  ⟨history.memory.step action, history.memory.book history.ledger action⟩

/-- The history of some actions, from the first on. -/
def History.of (actions : List Action) : History :=
  actions.foldl next start

/-! ## What a log says -/

/-- The writes reach slots of the variable only, and lead from one value of it to another. -/
def Amended (name : String) (later : List Write) (given value : Value) : Prop :=
  (∀ write ∈ later, write.place.name = name → write.place.coordinates ≠ []) ∧
    (later.filter fun write => write.place.name = name).foldlM
      (fun array write => array.write write.value write.place.coordinates) given = .ok value

/-- The value last given to a variable, with the slots that were written since then. -/
def LastGiven (log : List Write) (name : String) (value : Value) : Prop :=
  ∃ earlier write later, log = earlier ++ write :: later ∧ write.place.name = name ∧
    write.place.coordinates = [] ∧ Amended name later write.value value

/-- What a variable holds after a write to it. -/
def Write.onto (write : Write) (held : Option Value) : Option Value :=
  match write.place.coordinates with
  | [] => some write.value
  | coordinates => held.bind fun value => (value.write write.value coordinates).toOption

/-- What a variable holds after the writes of a log, from what it held before. -/
def replay (name : String) (log : List Write) (held : Option Value) : Option Value :=
  log.foldl (fun held write => if name = write.place.name then write.onto held else held) held

section Logs

variable {name : String} {value : Value} {write : Write}

theorem Write.onto_whole (whole : write.place.coordinates = []) (held : Option Value) :
    write.onto held = some write.value := by
  rw [onto, whole]

theorem Write.onto_slot (slot : write.place.coordinates ≠ []) (held : Option Value) :
    write.onto held = held.bind fun value =>
      (value.write write.value write.place.coordinates).toOption := by
  rw [onto]
  split
  · contradiction
  · rfl

theorem replay_append (name : String) (log : List Write) (write : Write) (held : Option Value) :
    replay name (log ++ [write]) held =
      if name = write.place.name then write.onto (replay name log held)
      else replay name log held := by
  rw [replay, List.foldl_append]
  rfl

theorem amended_nil {given : Value} : Amended name [] given value ↔ given = value := by
  simp [Amended, pure, Except.pure]

theorem amended_cons_of_ne (different : write.place.name ≠ name) {given : Value}
    {later : List Write} :
    Amended name (write :: later) given value ↔ Amended name later given value := by
  simp [Amended, different]

theorem amended_cons_of_eq (same : write.place.name = name) {given : Value}
    {later : List Write} :
    Amended name (write :: later) given value ↔
      write.place.coordinates ≠ [] ∧
        ∃ changed, given.write write.value write.place.coordinates = .ok changed ∧
          Amended name later changed value := by
  rw [Amended, List.forall_mem_cons, List.filter_cons_of_pos (by simpa using same),
    List.foldlM_cons]
  constructor
  · rintro ⟨⟨slot, slots⟩, changes⟩
    rcases exists_of_bind changes with ⟨changed, wrote, changes⟩
    exact ⟨slot same, changed, wrote, slots, changes⟩
  · rintro ⟨slot, changed, wrote, slots, changes⟩
    rw [wrote, ok_bind]
    exact ⟨⟨fun _ => slot, slots⟩, changes⟩

theorem lastGiven_cons {log : List Write} :
    LastGiven (write :: log) name value ↔
      LastGiven log name value ∨
        write.place.name = name ∧ write.place.coordinates = [] ∧
          Amended name log write.value value := by
  constructor
  · rintro ⟨earlier, found, later, split, same, whole, amended⟩
    cases earlier with
    | nil =>
        cases split
        exact .inr ⟨same, whole, amended⟩
    | cons head tail =>
        cases split
        exact .inl ⟨tail, found, later, rfl, same, whole, amended⟩
  · rintro (⟨earlier, found, later, rfl, rest⟩ | rest)
    · exact ⟨write :: earlier, found, later, rfl, rest⟩
    · exact ⟨[], write, log, rfl, rest⟩

/-- A variable holds what was last given to it, or else what it held before, amended. -/
theorem replay_eq_some_iff {log : List Write} {held : Option Value} :
    replay name log held = some value ↔
      LastGiven log name value ∨ ∃ given, held = some given ∧ Amended name log given value := by
  induction log generalizing held with
  | nil =>
      have nothing : ¬ LastGiven [] name value := by
        rintro ⟨earlier, write, later, split, _⟩
        simp at split
      simp [replay, nothing, amended_nil]
  | cons write log ih =>
      -- A value that the rest of the log gives hides the first write; otherwise that write counts.
      rw [replay, List.foldl_cons, ← replay, ih, lastGiven_cons, or_assoc]
      refine or_congr_right ?_
      by_cases same : write.place.name = name
      · rw [if_pos same.symm]
        by_cases whole : write.place.coordinates = []
        · simp [Write.onto_whole whole, amended_cons_of_eq same, same, whole]
        · rw [Write.onto_slot whole]
          cases held with
          | none => simp [whole]
          | some given => simp [amended_cons_of_eq same, whole, toOption_eq_some_iff]
      · rw [if_neg (Ne.symm same)]
        simp [same, amended_cons_of_ne same]

end Logs

/-! ## Frames and their logs -/

/-- A frame holds what its log says. -/
def Accounts (log : List Write) (frame : Frame) : Prop :=
  ∀ name, frame.get? name = replay name log none

/-- A frame holds the values last given to its variables, with the slots written since then. -/
theorem Accounts.get?_eq_some_iff {log : List Write} {frame : Frame} (accounts : Accounts log frame)
    (name : String) (value : Value) :
    frame.get? name = some value ↔ LastGiven log name value := by
  rw [accounts name, replay_eq_some_iff]
  simp

theorem accounts_entries (frame : Frame) :
    Accounts (frame.entries.map fun entry => ⟨.var entry.1, entry.2⟩) frame := by
  intro name
  have last := Bindings.foldl_entries frame.ordered name none
  rw [Option.or_none] at last
  rw [replay, List.foldl_map]
  exact last.symm

theorem Accounts.append {log : List Write} {frame : Frame} (accounts : Accounts log frame)
    {write : Write} {new : Value} (gives : write.onto (frame.get? write.place.name) = some new) :
    Accounts (log ++ [write]) (frame.insert write.place.name new) := by
  intro name
  rw [Bindings.get?_insert, replay_append, ← accounts name]
  split
  · rename_i same
    rw [same, gives]
  · rfl

/-- What holds of two lists member by member holds after a change in one place of both. -/
theorem forall₂_modify {α β : Type} {relates : α → β → Prop} {firsts : List α} {seconds : List β}
    {change : α → α} {adapt : β → β} {index : Nat}
    (related : List.Forall₂ relates firsts seconds)
    (kept : ∀ first second, seconds[index]? = some second → relates first second →
      relates (change first) (adapt second)) :
    List.Forall₂ relates (firsts.modify index change) (seconds.modify index adapt) := by
  induction related generalizing index with
  | nil => simp
  | cons head tail ih =>
      cases index with
      | zero =>
          rw [List.modify_zero_cons, List.modify_zero_cons]
          exact .cons (kept _ _ rfl head) tail
      | succ index =>
          rw [List.modify_succ_cons, List.modify_succ_cons]
          exact .cons head (ih fun first second found => kept first second found)

/-! ## Where a write lands -/

variable {memory after : Memory} {name : String} {value : Value} {place : Place}

theorem owner_lt (memory : Memory) (name : String) : memory.owner name < memory.frames.length := by
  rw [owner]
  cases found : memory.frames.findIdx? fun frame => frame.contains name with
  | none => exact Nat.succ_pos _
  | some index => exact (List.findIdx?_eq_some_iff_findIdx_eq.mp found).1

/-- The first frame that has a variable has what a search finds. -/
theorem get?_of_findIdx? {frames : List Frame} {frame : Frame} {index : Nat}
    (found : (frames.findIdx? fun frame => frame.contains name) = some index)
    (selects : frames[index]? = some frame) : frame.get? name = Bindings.find? frames name := by
  induction frames generalizing index with
  | nil => cases found
  | cons head tail ih =>
      rw [List.findIdx?_cons] at found
      split at found
      · rename_i here
        cases found
        cases selects
        rcases Option.isSome_iff_exists.mp here with ⟨held, here⟩
        rw [here, Bindings.find?_of_some here]
      · rename_i elsewhere
        rcases Option.map_eq_some_iff.mp found with ⟨place, foundLater, rfl⟩
        rw [Bindings.find?_of_none ((Bindings.not_contains_iff head name).mp elsewhere)]
        exact ih foundLater selects

/-- The owner of a variable has what a look-up finds. -/
theorem get?_owner {frame : Frame} (owns : memory.frames[memory.owner name]? = some frame) :
    frame.get? name = memory.lookup? name := by
  rw [owner] at owns
  cases first : memory.frames.findIdx? fun frame => frame.contains name with
  | none =>
      rw [first] at owns
      cases owns
      have missing : ∀ frame ∈ memory.frames, frame.get? name = none := by
        intro frame member
        rw [← Bindings.not_contains_iff, List.findIdx?_eq_none_iff.mp first frame member]
        exact Bool.false_ne_true
      rw [missing memory.top List.mem_cons_self, lookup?, List.findSome?_eq_none_iff.mpr missing]
  | some index =>
      rw [first] at owns
      exact get?_of_findIdx? first owns

theorem replaceIn_eq (name : String) (value : Value) (frames : List Frame) :
    replaceIn name value frames =
      (frames.findIdx? fun frame => frame.contains name).map fun index =>
        frames.modify index fun frame => frame.insert name value := by
  induction frames with
  | nil => rfl
  | cons frame rest ih =>
      rw [replaceIn, List.findIdx?_cons]
      split
      · rfl
      · rw [ih, Option.map_map, Option.map_map]
        rfl

/-- A variable is changed in the frame that owns it. -/
theorem frames_update_eq (memory : Memory) (name : String) (value : Value) :
    (memory.update name value).frames =
      memory.frames.modify (memory.owner name) fun frame => frame.insert name value := by
  have replaced := replaceIn_eq name value memory.frames
  rw [owner]
  cases found : memory.frames.findIdx? fun frame => frame.contains name with
  | none =>
      rw [found] at replaced
      rw [update, replaced]
      rfl
  | some index =>
      rw [found] at replaced
      exact frames_update replaced

/-- The write is made in a frame of the memory, and only there. -/
structure Lands (memory : Memory) (index : Nat) (write : Write) (after : Memory) : Prop where
  inside : index < memory.frames.length
  made : ∃ new, (∀ frame, memory.frames[index]? = some frame →
      write.onto (frame.get? write.place.name) = some new) ∧
    after.frames = memory.frames.modify index fun frame => frame.insert write.place.name new

theorem lands_bind (memory : Memory) (name : String) (value : Value) :
    Lands memory 0 ⟨.var name, value⟩ (memory.bind name value) :=
  ⟨Nat.succ_pos _, value, fun _ _ => rfl, rfl⟩

theorem lands_update (memory : Memory) (write : Write) {new : Value}
    (gives : write.onto (memory.lookup? write.place.name) = some new) :
    Lands memory (memory.owner write.place.name) write (memory.update write.place.name new) := by
  refine ⟨memory.owner_lt write.place.name, new, ?_, frames_update_eq memory write.place.name new⟩
  intro frame owns
  rw [get?_owner owns]
  exact gives

theorem lands_writeSlot {coordinates : List Int64}
    (written : (memory.writeSlot name coordinates value).outcome = .ok after) :
    Lands memory (memory.owner name) ⟨.slot name coordinates, value⟩ after := by
  by_cases whole : coordinates = []
  · subst whole
    cases written
    exact lands_update memory ⟨.slot name [], value⟩ rfl
  · rcases writeSlot_of_ne_nil whole written with ⟨array, changed, held, wrote, rfl⟩
    refine lands_update memory ⟨.slot name coordinates, value⟩ ?_
    have slot : (⟨.slot name coordinates, value⟩ : Write).place.coordinates ≠ [] := whole
    rw [Write.onto_slot slot]
    simp [Place.name, Place.coordinates, held, wrote, Except.toOption]

theorem lands_of_insert (inserted : memory.insert place value = .ok after) :
    Lands memory (memory.declaring place) ⟨place, value⟩ after := by
  cases place with
  | var name =>
      cases inserted
      exact lands_bind memory name value
  | slot name coordinates => exact lands_writeSlot inserted

theorem lands_of_set (overwritten : memory.set place value = .ok after) :
    Lands memory (memory.owner place.name) ⟨place, value⟩ after := by
  cases place with
  | var name =>
      cases overwritten
      exact lands_update memory ⟨.var name, value⟩ rfl
  | slot name coordinates => exact lands_writeSlot overwritten

/-! ## Actions -/

theorem Lands.accounts {ledger : List (List Write)} {index : Nat} {write : Write}
    (lands : Lands memory index write after)
    (accounts : List.Forall₂ Accounts ledger memory.frames) :
    List.Forall₂ Accounts (ledger.modify index (· ++ [write])) after.frames := by
  rcases lands.made with ⟨new, gives, frames⟩
  rw [frames]
  exact forall₂_modify accounts fun log frame found logged => logged.append (gives frame found)

theorem accounts_change {ledger : List (List Write)} {index : Nat} {write : Write}
    {change : Change Memory} (accounts : List.Forall₂ Accounts ledger memory.frames)
    (atomic : change.Atomic memory)
    (lands : ∀ after, change.outcome = .ok after → Lands memory index write after) :
    List.Forall₂ Accounts (log ledger index write change.fault?) change.left.frames := by
  rcases change with ⟨_ | fault, left⟩
  · exact (lands left rfl).accounts accounts
  · cases (atomic fault rfl : left = memory)
    exact accounts

/-- Every action keeps the ledger in step with the frames. -/
theorem accounts_step {ledger : List (List Write)}
    (accounts : List.Forall₂ Accounts ledger memory.frames) (action : Action) :
    List.Forall₂ Accounts (memory.book ledger action) (memory.step action).frames := by
  cases action with
  | push frame => exact .cons (accounts_entries frame) accounts
  | pop =>
      rcases memory with ⟨top, _ | ⟨next, rest⟩⟩
      · exact accounts
      · cases accounts with
        | cons _ tail => exact tail
  | insert place value =>
      exact accounts_change accounts (memory.declare_atomic place value)
        fun after => lands_of_insert
  | set place value =>
      exact accounts_change accounts (memory.store_atomic place value) fun after => lands_of_set

theorem accounts_foldl {history : History}
    (accounts : List.Forall₂ Accounts history.ledger history.memory.frames)
    (actions : List Action) :
    List.Forall₂ Accounts (actions.foldl History.next history).ledger
      (actions.foldl History.next history).memory.frames := by
  induction actions generalizing history with
  | nil => exact accounts
  | cons action actions ih => exact ih (accounts_step accounts action)

/-- After every history each frame holds what its log says. -/
theorem History.accounts (actions : List Action) :
    List.Forall₂ Accounts (of actions).ledger (of actions).memory.frames := by
  have nothing : Accounts [] Bindings.empty := fun _ => rfl
  exact accounts_foldl (.cons nothing .nil) actions

/-- One frame may have changed, and all others are as they were. -/
def AllButOne (before after : Memory) : Prop :=
  ∃ inner old new outer, before.frames = inner ++ old :: outer ∧
    after.frames = inner ++ new :: outer

theorem allButOne_change {index : Nat} {write : Write} {change : Change Memory}
    (atomic : change.Atomic memory)
    (lands : ∀ after, change.outcome = .ok after → Lands memory index write after) :
    memory.AllButOne change.left := by
  rcases change with ⟨_ | fault, left⟩
  · rcases lands left rfl with ⟨inside, new, _, frames⟩
    rcases List.exists_of_modify (fun frame => frame.insert write.place.name new) inside with
      ⟨inner, old, outer, before, _, changed⟩
    exact ⟨inner, old, _, outer, before, frames.trans changed⟩
  · cases (atomic fault rfl : left = memory)
    exact ⟨[], left.top, left.top, left.below, rfl, rfl⟩

/-! ## What can be seen of a memory -/

theorem pop?_eq_none_iff (memory : Memory) : memory.pop? = none ↔ memory.depth = 1 := by
  rcases memory with ⟨top, _ | ⟨next, rest⟩⟩
  · simp [pop?, depth, frames]
  · simp [pop?, depth, frames]

theorem frames_of_pop? {rest : Memory} {frame : Frame}
    (popped : memory.pop? = some (frame, rest)) : memory.frames = frame :: rest.frames := by
  rcases memory with ⟨top, _ | ⟨next, more⟩⟩
  · cases popped
  · cases popped
    rfl

theorem get_var_eq_ok_iff (memory : Memory) (name : String) (value : Value) :
    memory.get (.var name) = .ok value ↔ memory.lookup? name = some value := by
  rw [get, Place.name]
  cases memory.lookup? name <;> simp

/-- A look-up goes to the innermost frame that has the variable. -/
theorem get_var_eq_ok_iff_exists (memory : Memory) (name : String) (value : Value) :
    memory.get (.var name) = .ok value ↔
      ∃ inner frame outer, memory.frames = inner ++ frame :: outer ∧
        (∀ other ∈ inner, other.get? name = none) ∧ frame.get? name = some value := by
  rw [get_var_eq_ok_iff, lookup?, List.findSome?_eq_some_iff]
  simp only [and_comm]

theorem get_var_eq_error_iff (memory : Memory) (name : String) (fault : Fault) :
    memory.get (.var name) = .error fault ↔
      (∀ frame ∈ memory.frames, frame.get? name = none) ∧ fault = .undefinedVariable name := by
  rw [← List.findSome?_eq_none_iff, ← lookup?, get, Place.name]
  cases memory.lookup? name <;> simp [eq_comm]

/-- The variables that can be read are listed with the values that are read. -/
theorem mem_visible_iff_get (memory : Memory) (name : String) (value : Value) :
    (name, value) ∈ memory.visible ↔ memory.get (.var name) = .ok value := by
  rw [visible, Bindings.mem_entries_iff, get?_flatten, get_var_eq_ok_iff]
  rfl

theorem visible_pairwise (memory : Memory) :
    memory.visible.Pairwise fun first second => Text.bytes first.1 < Text.bytes second.1 :=
  (flatten memory.frames).ordered.imp fun less => (Text.lt_iff_bytes_lt _ _).mp less

/--
After every history there is a frame, and the only frame is not taken off.  Every frame
holds, of every variable, the value last given to it there, with the slots written since
then.  A variable is read in the innermost frame that has it, and cannot be read if no
frame has it.  A further frame leaves those below it as they are, and a write leaves all
frames but one.  The variables that can be read are listed in the order of their bytes.
-/
theorem History.frames_as_logged {actions : List Action} {memory : Memory}
    {ledger : List (List Write)} (reached : of actions = ⟨memory, ledger⟩) :
    1 ≤ memory.depth ∧
    (memory.pop? = none ↔ memory.depth = 1) ∧
    List.Forall₂
      (fun log frame => ∀ name value, frame.get? name = some value ↔ LastGiven log name value)
      ledger memory.frames ∧
    (∀ name value, memory.get (.var name) = .ok value ↔
      ∃ inner frame outer, memory.frames = inner ++ frame :: outer ∧
        (∀ other ∈ inner, other.get? name = none) ∧ frame.get? name = some value) ∧
    (∀ name fault, memory.get (.var name) = .error fault ↔
      (∀ frame ∈ memory.frames, frame.get? name = none) ∧ fault = .undefinedVariable name) ∧
    (∀ frame, (memory.step (.push frame)).frames = frame :: memory.frames) ∧
    (memory.pop? = none → memory.step .pop = memory) ∧
    (∀ frame rest, memory.pop? = some (frame, rest) →
      memory.frames = frame :: rest.frames ∧ memory.step .pop = rest) ∧
    (∀ place value, memory.AllButOne (memory.step (.insert place value)) ∧
      memory.AllButOne (memory.step (.set place value))) ∧
    (memory.visible.Pairwise fun first second => Text.bytes first.1 < Text.bytes second.1) ∧
    ∀ name value, (name, value) ∈ memory.visible ↔ memory.get (.var name) = .ok value := by
  have logged := accounts actions
  rw [reached] at logged
  refine ⟨Nat.succ_pos _, memory.pop?_eq_none_iff, ?_, memory.get_var_eq_ok_iff_exists,
    memory.get_var_eq_error_iff, fun _ => rfl, ?_, ?_, ?_, memory.visible_pairwise,
    memory.mem_visible_iff_get⟩
  · exact logged.imp fun log frame accounts => accounts.get?_eq_some_iff
  · intro last
    rw [step, pop, last]
  · intro frame rest popped
    refine ⟨frames_of_pop? popped, ?_⟩
    rw [step, pop, popped]
  · intro place value
    constructor
    · exact allButOne_change (memory.declare_atomic place value) fun after => lands_of_insert
    · exact allButOne_change (memory.store_atomic place value) fun after => lands_of_set

/-- An array is hidden and uncovered again; then one slot of it is written, and one it has not. -/
def shadowed : List Action :=
  [.insert (.var "a") (.array [.int 1, .int 2]),
    .push (Bindings.empty.insert "a" (.int 5)),
    .set (.var "a") (.int 6),
    .set (.slot "a" [0]) (.int 7),
    .pop,
    .set (.slot "a" [1]) (.int 9),
    .insert (.slot "a" [2]) (.int 3)]

theorem History.frames_as_logged_shadowed :
    ∃ memory log, of shadowed = ⟨memory, [log]⟩ ∧
      memory.get (.var "a") = .ok (.array [.int 1, .int 9]) ∧
      log.length = 2 ∧ LastGiven log "a" (.array [.int 1, .int 9]) ∧
      memory.pop? = none ∧ memory.step .pop = memory := by
  have reached : of shadowed = ⟨(of shadowed).memory, [_]⟩ := rfl
  rcases frames_as_logged reached with ⟨_, _, logged, _, _, _, kept, _⟩
  have only := (List.forall₂_cons.mp logged).1 "a"
  exact ⟨_, _, reached, rfl, rfl, (only _).mp rfl, rfl, kept rfl⟩

end MatrixScript.Memory

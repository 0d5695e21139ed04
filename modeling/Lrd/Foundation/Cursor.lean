import Mathlib.Data.List.Basic

/-!
# Reading with a sticky failure

A cursor walks over a string of symbols. A read that asks for more than is left
raises a flag that stays up, and later reads return placeholders. A parser is such
a read that may also refuse what it has read.

`Reads` is the two-way specification of a parser against a printer: it accepts
every printed valid value, and what it returns without failing is a valid value
whose printed form it has consumed. The rules `Reads.seq`, `Reads.bind` and
`Reads.repeated` build specifications of composite parsers. `Declines` tells what a parser
refuses, and `Online` that it does not look ahead: a parser that reads an input to its end
runs out of every shorter one (`Online.runsOut`).
-/

namespace Foundation

/-- A position in a string of symbols, and whether a read has gone past the end. -/
structure Cursor {β : Type} (data : List β) where
  pos : Nat
  failed : Bool
  inside : pos ≤ data.length

/-- A computation that moves a cursor. -/
abbrev Reader {β : Type} (data : List β) : Type → Type := StateM (Cursor data)

/-- A computation that moves a cursor and may refuse, with a reason. -/
abbrev Parser (ε : Type) {β : Type} (data : List β) : Type → Type := ExceptT ε (Reader data)

namespace Cursor

variable {β : Type} {data : List β}

/-- A cursor at the beginning. -/
def start (data : List β) : Cursor data := ⟨0, false, Nat.zero_le _⟩

/-- How many symbols are left. -/
def remaining (cursor : Cursor data) : Nat := data.length - cursor.pos

/-- Whether none is left. -/
def exhausted (cursor : Cursor data) : Bool := cursor.remaining == 0

/-- What is left to read. -/
def rest (cursor : Cursor data) : List β := data.drop cursor.pos

/-- Take symbols from the input, or fail if there are not enough. -/
def take (count : Nat) : Reader data (Option (List β)) := fun cursor =>
  if cursor.failed then (none, cursor)
  else if short : cursor.remaining < count then (none, { cursor with failed := true })
  else
    (some (cursor.rest.take count),
      { cursor with
        pos := cursor.pos + count
        inside := by
          have inside := cursor.inside
          rw [remaining] at short
          omega })

/-- Whether a read has failed. -/
def hasFailed : Reader data Bool := fun cursor => (cursor.failed, cursor)

/-- A value decoded from a fixed number of symbols, or a placeholder if there are
not enough. -/
def fetch {α : Type} (count : Nat) (placeholder : α) (decode : List β → α) : Reader data α := do
  match ← take count with
  | none => return placeholder
  | some symbols => return decode symbols

theorem failed_start (data : List β) : (start data).failed = false := rfl

theorem length_rest (cursor : Cursor data) : cursor.rest.length = cursor.remaining :=
  List.length_drop

theorem exhausted_iff (cursor : Cursor data) : cursor.exhausted = true ↔ cursor.rest = [] := by
  rw [exhausted, beq_iff_eq, ← length_rest, List.length_eq_zero_iff]

variable {cursor : Cursor data}

theorem take_failed (failed : cursor.failed = true) (count : Nat) :
    take count cursor = (none, cursor) := by
  simp only [take, failed, ↓reduceIte]

/-- Taking more than is left fails. -/
theorem take_short (sound : cursor.failed = false) {count : Nat}
    (short : cursor.rest.length < count) :
    take count cursor = (none, { cursor with failed := true }) := by
  rw [length_rest] at short
  simp only [take, sound, Bool.false_eq_true, ↓reduceIte, short, ↓reduceDIte]

/-- Taking what is left succeeds. -/
theorem take_enough (sound : cursor.failed = false) {count : Nat}
    (enough : count ≤ cursor.rest.length) :
    ∃ after : Cursor data, take count cursor = (some (cursor.rest.take count), after) ∧
      after.failed = false ∧ after.rest = cursor.rest.drop count := by
  rw [length_rest] at enough
  have long : ¬ cursor.remaining < count := Nat.not_lt.mpr enough
  simp only [take, sound, Bool.false_eq_true, ↓reduceIte, long, ↓reduceDIte]
  refine ⟨_, rfl, rfl, ?_⟩
  rw [rest, rest, List.drop_drop]

section Fetch

variable {α : Type} {count : Nat} (placeholder : α) (decode : List β → α)

/-- A fetch is a take, with a placeholder for its failure. -/
theorem fetch_eq (cursor : Cursor data) :
    fetch count placeholder decode cursor =
      match take count cursor with
      | (none, after) => (placeholder, after)
      | (some symbols, after) => (decode symbols, after) := by
  unfold fetch
  change StateT.bind (take count) _ cursor = _
  simp only [StateT.bind]
  rcases take count cursor with ⟨_ | _, _⟩ <;> rfl

theorem fetch_failed (failed : cursor.failed = true) :
    fetch count placeholder decode cursor = (placeholder, cursor) := by
  rw [fetch_eq, take_failed failed]

theorem fetch_short (sound : cursor.failed = false) (short : cursor.rest.length < count) :
    fetch count placeholder decode cursor = (placeholder, { cursor with failed := true }) := by
  rw [fetch_eq, take_short sound short]

/-- A fetch of what is left decodes it. -/
theorem fetch_enough (sound : cursor.failed = false) (enough : count ≤ cursor.rest.length) :
    ∃ after : Cursor data,
      fetch count placeholder decode cursor = (decode (cursor.rest.take count), after) ∧
        after.failed = false ∧ after.rest = cursor.rest.drop count := by
  obtain ⟨after, taken, fine, rest⟩ := take_enough sound enough
  refine ⟨after, ?_, fine, rest⟩
  rw [fetch_eq, taken]

/-- What a read of a fixed number of symbols can come to. -/
inductive Fetched (count : Nat) (cursor : Cursor data) : α × Cursor data → Prop where
  | stuck (failed : cursor.failed = true) : Fetched count cursor (placeholder, cursor)
  | short (sound : cursor.failed = false) (short : cursor.rest.length < count) :
      Fetched count cursor (placeholder, { cursor with failed := true })
  | enough {after : Cursor data} (sound : cursor.failed = false)
      (enough : count ≤ cursor.rest.length) (fine : after.failed = false)
      (rest : after.rest = cursor.rest.drop count) :
      Fetched count cursor (decode (cursor.rest.take count), after)

/-- What a fetch comes to. -/
theorem fetched (count : Nat) (cursor : Cursor data) :
    Fetched placeholder decode count cursor (fetch count placeholder decode cursor) := by
  cases state : cursor.failed with
  | true =>
      rw [fetch_failed placeholder decode state]
      exact .stuck state
  | false =>
      by_cases short : cursor.rest.length < count
      · rw [fetch_short placeholder decode state short]
        exact .short state short
      · obtain ⟨after, fetched, fine, rest⟩ :=
          fetch_enough placeholder decode state (Nat.not_lt.mp short)
        rw [fetched]
        exact .enough state (Nat.not_lt.mp short) fine rest

end Fetch

end Cursor

namespace Parser

variable {ε β α γ : Type} {data : List β}

/-- One parser after another. -/
theorem run_bind (parser : Parser ε data α) (next : α → Parser ε data γ) (cursor : Cursor data) :
    (parser >>= next).run cursor =
      match parser.run cursor with
      | (.ok value, after) => (next value).run after
      | (.error reason, after) => (.error reason, after) := by
  rw [ExceptT.run_bind]
  change StateT.bind parser.run _ cursor = _
  simp only [StateT.bind]
  rcases parser.run cursor with ⟨_ | _, _⟩ <;> rfl

/-- A read that never refuses, as a parser. -/
def ofReader (reader : Reader data α) : Parser ε data α := liftM reader

theorem run_ofReader (reader : Reader data α) (cursor : Cursor data) :
    (ofReader reader : Parser ε data α).run cursor = (.ok (reader cursor).1, (reader cursor).2) := rfl

theorem ofReader_bind (reader : Reader data α) (next : α → Reader data γ) :
    (ofReader (reader >>= next) : Parser ε data γ) =
      ofReader reader >>= fun value => ofReader (next value) := rfl

/-- A choice of readers is a choice of parsers. -/
theorem ofReader_ite (condition : Prop) [Decidable condition] (yes no : Reader data α) :
    (ofReader (if condition then yes else no) : Parser ε data α) =
      if condition then ofReader yes else ofReader no :=
  apply_ite ofReader condition yes no

/-- Two parsers one after the other. -/
def seq (first : Parser ε data α) (second : Parser ε data γ) : Parser ε data (α × γ) := do
  let a ← first
  let b ← second
  return (a, b)

/-- A parser as often as given, refusing when a value does not fit. -/
def repeated (parser : Parser ε data α) (fits : α → Bool) (reason : ε) :
    Nat → Parser ε data (List α)
  | 0 => pure []
  | count + 1 => do
      let value ← parser
      if fits value then
        let values ← repeated parser fits reason count
        return value :: values
      else throw reason

/-- After a success the next parser goes on. -/
theorem bind_some {parser : Parser ε data α} {cursor after : Cursor data} {value : α}
    (result : parser.run cursor = (.ok value, after)) (next : α → Parser ε data γ) :
    (parser >>= next).run cursor = (next value).run after := by
  rw [run_bind, result]

/-- A parser that first looks whether an earlier read has failed. -/
def unlessFailed (otherwise parser : Parser ε data α) : Parser ε data α := do
  if ← ofReader Cursor.hasFailed then otherwise else parser

/-- After a failure the alternative is taken. -/
theorem unlessFailed_failed {cursor : Cursor data} (failed : cursor.failed = true)
    {otherwise parser : Parser ε data α} :
    (unlessFailed otherwise parser).run cursor = otherwise.run cursor := by
  rw [unlessFailed, bind_some (run_ofReader ..)]
  change (if cursor.failed then otherwise else parser).run cursor = _
  rw [failed]
  rfl

/-- Without a failure the parser goes on. -/
theorem unlessFailed_sound {cursor : Cursor data} (sound : cursor.failed = false)
    {otherwise parser : Parser ε data α} :
    (unlessFailed otherwise parser).run cursor = parser.run cursor := by
  rw [unlessFailed, bind_some (run_ofReader ..)]
  change (if cursor.failed then otherwise else parser).run cursor = _
  rw [sound]
  rfl

variable {next : α → Parser ε data γ}

/-- How a sequence can come to its result. -/
theorem bind_cases {parser : Parser ε data α} {cursor after : Cursor data} {result : Except ε γ}
    (run : (parser >>= next).run cursor = (result, after)) :
    (∃ value middle, parser.run cursor = (.ok value, middle) ∧
      (next value).run middle = (result, after)) ∨
    (∃ reason, parser.run cursor = (.error reason, after) ∧ result = .error reason) := by
  rw [run_bind] at run
  rcases first : parser.run cursor with ⟨reason | value, middle⟩
  · rw [first] at run
    cases run
    exact Or.inr ⟨reason, rfl, rfl⟩
  · rw [first] at run
    exact Or.inl ⟨value, middle, rfl, run⟩

/-- Every reason the parser refuses for is one of the given. -/
def Refuses (parser : Parser ε data α) (reasons : ε → Prop) : Prop :=
  ∀ (cursor after : Cursor data) (reason : ε),
    parser.run cursor = (.error reason, after) → reasons reason

namespace Refuses

variable {reasons : ε → Prop}

theorem ofReader (reader : Reader data α) :
    Refuses (ofReader reader : Parser ε data α) reasons := by
  intro cursor after reason run
  cases run

theorem pure (value : α) : Refuses (pure value : Parser ε data α) reasons := by
  intro cursor after reason run
  cases run

/-- A refusal is for its reason. -/
theorem throw {reason : ε} (isOne : reasons reason) :
    Refuses (throw reason : Parser ε data α) reasons := by
  intro cursor after other run
  cases run
  exact isOne

/-- A sequence refuses for a reason of one of its parts. -/
theorem bind {parser : Parser ε data α} (first : Refuses parser reasons)
    (second : ∀ value, Refuses (next value) reasons) :
    Refuses (parser >>= next) reasons := by
  intro cursor after reason run
  rcases bind_cases run with ⟨value, middle, _, rest⟩ | ⟨_, ran, same⟩
  · exact second value middle after reason rest
  · rw [Except.error.inj same]
    exact first cursor after _ ran

end Refuses

/-- A parser that leaves a failed cursor has refused, for the given reason. -/
def Reports (parser : Parser ε data α) (reason : ε) : Prop :=
  ∀ (cursor after : Cursor data) (result : Except ε α), parser.run cursor = (result, after) →
    after.failed = true → result = .error reason

namespace Reports

variable {reason : ε}

/-- A reader in front does not change what is reported. -/
theorem bind (reader : Reader data α) (reports : ∀ value, Reports (next value) reason) :
    Reports (Parser.ofReader reader >>= next) reason := by
  intro cursor after result run failed
  rw [bind_some (run_ofReader ..)] at run
  exact reports _ _ after result run failed

/-- Where the flag is checked, only what follows on a sound cursor is left to report. -/
theorem unlessFailed {parser : Parser ε data α}
    (sound : ∀ (cursor after : Cursor data) (result : Except ε α), cursor.failed = false →
      parser.run cursor = (result, after) → after.failed = true → result = .error reason) :
    Reports (Parser.unlessFailed (MonadExcept.throw reason) parser) reason := by
  intro cursor after result run failed
  cases before : cursor.failed with
  | true =>
      rw [unlessFailed_failed before] at run
      cases run
      rfl
  | false =>
      rw [unlessFailed_sound before] at run
      exact sound cursor after result before run failed

end Reports

end Parser

/-! ## Two-way specifications -/

/-- The parser accepts exactly the printed forms of valid values. -/
structure Reads {ε β α : Type} {data : List β} (parser : Parser ε data α) (print : α → List β)
    (valid : α → Prop) : Prop where
  sticky : ∀ {cursor after : Cursor data} {result : Except ε α},
    parser.run cursor = (result, after) → cursor.failed = true → after.failed = true
  accepts : ∀ {cursor : Cursor data} {value : α} {later : List β}, cursor.failed = false →
    valid value → cursor.rest = print value ++ later →
      ∃ after, parser.run cursor = (.ok value, after) ∧ after.failed = false ∧ after.rest = later
  inverts : ∀ {cursor after : Cursor data} {value : α}, parser.run cursor = (.ok value, after) →
    after.failed = false → valid value ∧ cursor.rest = print value ++ after.rest

namespace Reads

variable {ε β α γ : Type} {data : List β} {print : α → List β} {valid : α → Prop}

variable {parser : Parser ε data α}

/-- A cursor that has not failed after a read had not failed before it. -/
theorem sound (reads : Reads parser print valid) {cursor after : Cursor data} {result : Except ε α}
    (run : parser.run cursor = (result, after)) (fine : after.failed = false) :
    cursor.failed = false := by
  cases failed : cursor.failed with
  | false => rfl
  | true =>
      rw [reads.sticky run failed] at fine
      cases fine

/-- A parser comes to the end of the input with a value exactly if the value's printed
form is all that was left. -/
theorem complete (reads : Reads parser print valid) (cursor : Cursor data) (value : α) :
    (∃ after, parser.run cursor = (.ok value, after) ∧ after.failed = false ∧ after.rest = []) ↔
      cursor.failed = false ∧ valid value ∧ cursor.rest = print value := by
  constructor
  · rintro ⟨after, run, fine, empty⟩
    obtain ⟨isValid, split⟩ := reads.inverts run fine
    rw [empty, List.append_nil] at split
    exact ⟨reads.sound run fine, isValid, split⟩
  · rintro ⟨fine, isValid, split⟩
    rw [← List.append_nil (print value)] at split
    exact reads.accepts fine isValid split

/-- The rest of an input starts with the printed form of at most one valid value. -/
theorem unique (reads : Reads parser print valid) {cursor : Cursor data}
    (fine : cursor.failed = false) {value value' : α} (isValid : valid value)
    (isValid' : valid value') {later later' : List β} (split : cursor.rest = print value ++ later)
    (split' : cursor.rest = print value' ++ later') :
    value = value' ∧ later = later' := by
  obtain ⟨after, run, _, rest⟩ := reads.accepts fine isValid split
  obtain ⟨after', run', _, rest'⟩ := reads.accepts fine isValid' split'
  obtain ⟨sameValue, sameCursor⟩ := Prod.mk.inj (run.symm.trans run')
  refine ⟨Except.ok.inj sameValue, ?_⟩
  rw [← rest, ← rest', sameCursor]

/-- A value of fixed length. -/
theorem fetch {count : Nat} {decode : List β → α} (placeholder : α)
    (fixed : ∀ value, valid value → (print value).length = count ∧ decode (print value) = value)
    (onto : ∀ symbols, symbols.length = count →
      valid (decode symbols) ∧ print (decode symbols) = symbols) :
    Reads (.ofReader (Cursor.fetch count placeholder decode) : Parser ε data α) print valid where
  sticky := by
    intro cursor after result run failed
    rw [Parser.run_ofReader, Cursor.fetch_failed placeholder decode failed] at run
    cases run
    exact failed
  accepts := by
    intro cursor value later fine isValid split
    obtain ⟨length, decoded⟩ := fixed value isValid
    have enough : count ≤ cursor.rest.length := by
      rw [split, List.length_append, length]
      exact Nat.le_add_right _ _
    obtain ⟨after, fetched, afterFine, afterRest⟩ :=
      Cursor.fetch_enough placeholder decode fine enough
    refine ⟨after, ?_, afterFine, ?_⟩
    · rw [Parser.run_ofReader, fetched, split, ← length, List.take_left, decoded]
    · rw [afterRest, split, ← length, List.drop_left]
  inverts := by
    intro cursor after value run fine
    rw [Parser.run_ofReader] at run
    cases failed : cursor.failed with
    | true =>
        rw [Cursor.fetch_failed placeholder decode failed] at run
        cases run
        rw [failed] at fine
        cases fine
    | false =>
        by_cases short : cursor.rest.length < count
        · rw [Cursor.fetch_short placeholder decode failed short] at run
          cases run
          cases fine
        · obtain ⟨_, fetched, _, afterRest⟩ :=
            Cursor.fetch_enough placeholder decode failed (Nat.not_lt.mp short)
          rw [fetched] at run
          cases run
          obtain ⟨isValid, printed⟩ := onto (cursor.rest.take count)
            (List.length_take_of_le (Nat.not_lt.mp short))
          refine ⟨isValid, ?_⟩
          rw [printed, afterRest, List.take_append_drop]

/-- Two parsers read what is printed one after the other. -/
theorem seq {first : Parser ε data α} {second : Parser ε data γ} {print' : γ → List β}
    {valid' : γ → Prop} (firstReads : Reads first print valid)
    (secondReads : Reads second print' valid') :
    Reads (first.seq second) (fun pair => print pair.1 ++ print' pair.2)
      (fun pair => valid pair.1 ∧ valid' pair.2) where
  sticky := by
    intro cursor after result run failed
    rcases Parser.bind_cases run with ⟨a, middle, ran, rest⟩ | ⟨_, ran, _⟩
    · have middleFailed := firstReads.sticky ran failed
      rcases Parser.bind_cases rest with ⟨b, final, ran', done⟩ | ⟨_, ran', _⟩
      · cases done
        exact secondReads.sticky ran' middleFailed
      · exact secondReads.sticky ran' middleFailed
    · exact firstReads.sticky ran failed
  accepts := by
    rintro cursor ⟨a, b⟩ later fine ⟨aValid, bValid⟩ split
    rw [List.append_assoc] at split
    obtain ⟨middle, ran, middleFine, middleRest⟩ := firstReads.accepts fine aValid split
    obtain ⟨after, ran', afterFine, afterRest⟩ :=
      secondReads.accepts middleFine bValid middleRest
    refine ⟨after, ?_, afterFine, afterRest⟩
    rw [Parser.seq, Parser.bind_some ran, Parser.bind_some ran']
    rfl
  inverts := by
    rintro cursor after ⟨a, b⟩ run fine
    rcases Parser.bind_cases run with ⟨a', middle, ran, rest⟩ | ⟨_, _, impossible⟩
    · rcases Parser.bind_cases rest with ⟨b', final, ran', done⟩ | ⟨_, _, impossible⟩
      · cases done
        have middleFine := secondReads.sound ran' fine
        obtain ⟨aValid, split⟩ := firstReads.inverts ran middleFine
        obtain ⟨bValid, split'⟩ := secondReads.inverts ran' fine
        refine ⟨⟨aValid, bValid⟩, ?_⟩
        rw [split, split', List.append_assoc]
      · cases impossible
    · cases impossible

/-- A first part that the value determines, such as its length. -/
theorem bind {first : Parser ε data α} (firstReads : Reads first print valid)
    {next : α → Parser ε data γ} (key : γ → α) {body : γ → List β} {valid' : γ → Prop}
    (nextReads : ∀ a, Reads (next a) body fun c => valid' c ∧ key c = a)
    (keyed : ∀ c, valid' c → valid (key c)) :
    Reads (first >>= next) (fun c => print (key c) ++ body c) valid' where
  sticky := by
    intro cursor after result run failed
    rcases Parser.bind_cases run with ⟨a, middle, ran, rest⟩ | ⟨_, ran, _⟩
    · exact (nextReads a).sticky rest (firstReads.sticky ran failed)
    · exact firstReads.sticky ran failed
  accepts := by
    intro cursor value later fine isValid split
    rw [List.append_assoc] at split
    obtain ⟨middle, ran, middleFine, middleRest⟩ :=
      firstReads.accepts fine (keyed value isValid) split
    obtain ⟨after, ran', afterFine, afterRest⟩ :=
      (nextReads (key value)).accepts middleFine ⟨isValid, rfl⟩ middleRest
    refine ⟨after, ?_, afterFine, afterRest⟩
    rw [Parser.bind_some ran, ran']
  inverts := by
    intro cursor after value run fine
    rcases Parser.bind_cases run with ⟨a, middle, ran, rest⟩ | ⟨_, _, impossible⟩
    · obtain ⟨⟨isValid, same⟩, split'⟩ := (nextReads a).inverts rest fine
      obtain ⟨_, split⟩ := firstReads.inverts ran ((nextReads a).sound rest fine)
      refine ⟨isValid, ?_⟩
      rw [split, split', same, List.append_assoc]
    · cases impossible

/-- A check of the failure flag before a parser changes nothing for cursors that
have not failed. -/
theorem unlessFailed (reads : Reads parser print valid) {otherwise : Parser ε data α}
    (idle : ∀ cursor, (otherwise.run cursor).2 = cursor) :
    Reads (Parser.unlessFailed otherwise parser) print valid := by
  have staysFailed : ∀ {cursor after : Cursor data} {result : Except ε α},
      (Parser.unlessFailed otherwise parser).run cursor = (result, after) →
        cursor.failed = true → after.failed = true := by
    intro cursor after result run failed
    rw [Parser.unlessFailed_failed failed] at run
    have same := idle cursor
    rw [run] at same
    change after = cursor at same
    rw [same]
    exact failed
  refine ⟨staysFailed, ?_, ?_⟩
  · intro cursor value later fine isValid split
    obtain ⟨after, ran, rest⟩ := reads.accepts fine isValid split
    exact ⟨after, (Parser.unlessFailed_sound fine).trans ran, rest⟩
  · intro cursor after value run fine
    cases failed : cursor.failed with
    | true =>
        rw [staysFailed run failed] at fine
        cases fine
    | false =>
        rw [Parser.unlessFailed_sound failed] at run
        exact reads.inverts run fine

/-- A parser that always refuses accepts nothing. -/
theorem failure (reason : ε) (none : ∀ value, ¬ valid value) :
    Reads (throw reason : Parser ε data α) print valid where
  sticky := by
    intro cursor after result run failed
    cases run
    exact failed
  accepts := by
    intro cursor value later _ isValid
    exact absurd isValid (none value)
  inverts := by
    intro cursor after value run
    cases run

/-- What is read may be written in another way. -/
theorem congr (reads : Reads parser print valid) {print' : α → List β} {valid' : α → Prop}
    (samePrint : ∀ value, print value = print' value)
    (sameValid : ∀ value, valid value ↔ valid' value) : Reads parser print' valid' := by
  obtain rfl : print = print' := funext samePrint
  obtain rfl : valid = valid' := funext fun value => propext (sameValid value)
  exact reads

/-- Nothing is read and one value returned. -/
theorem constant (value : α) :
    Reads (pure value : Parser ε data α) (fun _ => []) (fun other => other = value) where
  sticky := by
    intro cursor after result run failed
    cases run
    exact failed
  accepts := by
    rintro cursor _ later fine rfl split
    exact ⟨cursor, rfl, fine, split⟩
  inverts := by
    intro cursor after other run _
    cases run
    exact ⟨rfl, rfl⟩

/-- A parser whose result is put in another form. -/
theorem build (reads : Reads parser print valid) (f : α → γ) (g : γ → α) (left : ∀ a, g (f a) = a)
    (right : ∀ c, f (g c) = c) :
    Reads (parser >>= fun a => pure (f a)) (fun c => print (g c)) (fun c => valid (g c)) where
  sticky := by
    intro cursor after result run failed
    rcases Parser.bind_cases run with ⟨a, middle, ran, done⟩ | ⟨_, ran, _⟩
    · cases done
      exact reads.sticky ran failed
    · exact reads.sticky ran failed
  accepts := by
    intro cursor value later fine isValid split
    obtain ⟨after, ran, afterFine, afterRest⟩ := reads.accepts fine isValid split
    refine ⟨after, ?_, afterFine, afterRest⟩
    rw [Parser.bind_some ran, right]
    rfl
  inverts := by
    intro cursor after value run fine
    rcases Parser.bind_cases run with ⟨a, middle, ran, done⟩ | ⟨_, _, impossible⟩
    · cases done
      rw [left]
      exact reads.inverts ran fine
    · cases impossible

/-- A parser that is repeated reads what is printed again and again. -/
theorem repeated (reads : Reads parser print valid) (fits : α → Bool) (reason : ε) (count : Nat) :
    Reads (parser.repeated fits reason count) (fun values => values.flatMap print)
      (fun values => values.length = count ∧ ∀ value ∈ values, valid value ∧ fits value = true) := by
  induction count with
  | zero =>
      refine ⟨?_, ?_, ?_⟩
      · intro cursor after result run failed
        cases run
        exact failed
      · rintro cursor values later fine ⟨length, _⟩ split
        rw [List.eq_nil_of_length_eq_zero length] at split ⊢
        exact ⟨cursor, rfl, fine, split⟩
      · intro cursor after values run fine
        cases run
        exact ⟨⟨rfl, fun _ member => absurd member List.not_mem_nil⟩, rfl⟩
  | succ count ih =>
      refine ⟨?_, ?_, ?_⟩
      · intro cursor after result run failed
        rcases Parser.bind_cases run with ⟨value, middle, ran, rest⟩ | ⟨_, ran, _⟩
        · have middleFailed := reads.sticky ran failed
          split at rest
          · rcases Parser.bind_cases rest with ⟨values, final, ran', done⟩ | ⟨_, ran', _⟩
            · cases done
              exact ih.sticky ran' middleFailed
            · exact ih.sticky ran' middleFailed
          · cases rest
            exact middleFailed
        · exact reads.sticky ran failed
      · rintro cursor values later fine ⟨length, each⟩ split
        cases values with
        | nil => cases length
        | cons value values =>
            obtain ⟨isValid, itFits⟩ := each value List.mem_cons_self
            rw [List.flatMap_cons, List.append_assoc] at split
            obtain ⟨middle, ran, middleFine, middleRest⟩ := reads.accepts fine isValid split
            obtain ⟨after, ran', afterFine, afterRest⟩ := ih.accepts middleFine
              ⟨Nat.succ.inj length, fun other member => each other (List.mem_cons_of_mem _ member)⟩
              middleRest
            refine ⟨after, ?_, afterFine, afterRest⟩
            rw [Parser.repeated, Parser.bind_some ran, if_pos itFits, Parser.bind_some ran']
            rfl
      · intro cursor after result run fine
        rcases Parser.bind_cases run with ⟨value, middle, ran, rest⟩ | ⟨_, _, impossible⟩
        · split at rest
          · rename_i itFits
            rcases Parser.bind_cases rest with ⟨values, final, ran', done⟩ | ⟨_, _, impossible⟩
            · cases done
              obtain ⟨⟨length, each⟩, split'⟩ := ih.inverts ran' fine
              obtain ⟨isValid, split⟩ := reads.inverts ran (ih.sound ran' fine)
              refine ⟨⟨congrArg (· + 1) length, ?_⟩, ?_⟩
              · intro other member
                rcases List.mem_cons.mp member with rfl | later
                · exact ⟨isValid, itFits⟩
                · exact each other later
              · rw [split, split', List.flatMap_cons, List.append_assoc]
            · cases impossible
          · cases rest
        · cases impossible

end Reads

/-! ## Refusals -/

/-- The parser refuses the printed forms of the given values, without running out of input. -/
def Declines {ε β α : Type} {data : List β} (parser : Parser ε data α) (print : α → List β)
    (turned : α → Prop) : Prop :=
  ∀ (cursor : Cursor data) (value : α) (later : List β), cursor.failed = false → turned value →
    cursor.rest = print value ++ later →
      ∃ reason after, parser.run cursor = (.error reason, after) ∧ after.failed = false

namespace Declines

variable {ε β α γ : Type} {data : List β} {print : α → List β} {turned : α → Prop}

/-- Fewer values are declined as well. -/
theorem imp {parser : Parser ε data α} (declines : Declines parser print turned)
    {fewer : α → Prop} (among : ∀ value, fewer value → turned value) :
    Declines parser print fewer := by
  intro cursor value later fine given split
  exact declines cursor value later fine (among value given) split

/-- What is declined may be written in another way. -/
theorem congr {parser : Parser ε data α} (declines : Declines parser print turned)
    {print' : α → List β} (samePrint : ∀ value, print value = print' value) :
    Declines parser print' turned := by
  obtain rfl : print = print' := funext samePrint
  exact declines

theorem throw (reason : ε) : Declines (throw reason : Parser ε data α) print turned := by
  intro cursor value later fine _ _
  exact ⟨reason, cursor, rfl, fine⟩

/-- A sequence is refused where its first part is. -/
theorem first {parser : Parser ε data α} (declines : Declines parser print turned)
    (next : α → Parser ε data γ) (key : γ → α) (body : γ → List β) :
    Declines (parser >>= next) (fun c => print (key c) ++ body c) (fun c => turned (key c)) := by
  intro cursor value later fine given split
  rw [List.append_assoc] at split
  obtain ⟨reason, after, run, afterFine⟩ := declines cursor (key value) _ fine given split
  refine ⟨reason, after, ?_, afterFine⟩
  rw [Parser.run_bind, run]

/-- A sequence is refused where its first part is read and the rest refused. -/
theorem second {parser : Parser ε data α} {valid : α → Prop} (reads : Reads parser print valid)
    {next : α → Parser ε data γ} (key : γ → α) {body : γ → List β} {turned : γ → Prop}
    (declines : ∀ a, Declines (next a) body fun c => turned c ∧ key c = a)
    (keyed : ∀ c, turned c → valid (key c)) :
    Declines (parser >>= next) (fun c => print (key c) ++ body c) turned := by
  intro cursor value later fine given split
  rw [List.append_assoc] at split
  obtain ⟨middle, run, middleFine, rest⟩ := reads.accepts fine (keyed value given) split
  rw [Parser.bind_some run]
  exact declines (key value) middle value later middleFine ⟨given, rfl⟩ rest

/-- Without a failure what is declined is declined. -/
theorem unlessFailed {parser : Parser ε data α} (declines : Declines parser print turned)
    (otherwise : Parser ε data α) : Declines (Parser.unlessFailed otherwise parser) print turned := by
  intro cursor value later fine given split
  rw [Parser.unlessFailed_sound fine]
  exact declines cursor value later fine given split

/-- A list is refused at its first value that does not fit. -/
theorem repeated {parser : Parser ε data α} {valid : α → Prop} (reads : Reads parser print valid)
    (fits : α → Bool) (reason : ε) (count : Nat) :
    Declines (parser.repeated fits reason count) (fun values => values.flatMap print)
      (fun values => values.length = count ∧ (∀ value ∈ values, valid value) ∧
        ∃ value ∈ values, fits value = false) := by
  induction count with
  | zero =>
      rintro cursor values later _ ⟨length, _, value, member, _⟩ _
      rw [List.eq_nil_of_length_eq_zero length] at member
      exact absurd member List.not_mem_nil
  | succ count ih =>
      rintro cursor values later fine ⟨length, each, value, member, unfit⟩ split
      cases values with
      | nil => cases length
      | cons first values =>
          simp only [List.flatMap_cons, List.append_assoc] at split
          obtain ⟨middle, run, middleFine, rest⟩ :=
            reads.accepts fine (each first List.mem_cons_self) split
          rw [Parser.repeated, Parser.bind_some run]
          by_cases itFits : fits first = true
          · rw [if_pos itFits]
            have inside : value ∈ values := by
              obtain rfl | inside := List.mem_cons.mp member
              · rw [itFits] at unfit
                cases unfit
              · exact inside
            obtain ⟨because, after, ran, afterFine⟩ := ih middle values later middleFine
              ⟨Nat.succ.inj length, fun other among => each other (List.mem_cons_of_mem _ among),
                value, inside, unfit⟩ rest
            refine ⟨because, after, ?_, afterFine⟩
            rw [Parser.run_bind, ran]
          · rw [if_neg itFits]
            exact ⟨reason, middle, rfl, middleFine⟩

end Declines

/-! ## Input that follows -/

namespace Cursor

variable {β : Type} {data : List β}

/-- The same place in a longer input. -/
def extend (cursor : Cursor data) (more : List β) : Cursor (data ++ more) where
  pos := cursor.pos
  failed := cursor.failed
  inside := by
    rw [List.length_append]
    exact Nat.le_add_right_of_le cursor.inside

@[simp] theorem failed_extend (cursor : Cursor data) (more : List β) :
    (cursor.extend more).failed = cursor.failed := rfl

theorem rest_extend (cursor : Cursor data) (more : List β) :
    (cursor.extend more).rest = cursor.rest ++ more :=
  List.drop_append_of_le_length cursor.inside

/-- A take that finds enough does not look at what follows. -/
theorem take_extend {cursor after : Cursor data} {count : Nat} {symbols : Option (List β)}
    (taken : take count cursor = (symbols, after)) (fine : after.failed = false) (more : List β) :
    take count (cursor.extend more) = (symbols, after.extend more) := by
  unfold take at taken
  split at taken
  · rename_i failed
    cases taken
    rw [failed] at fine
    cases fine
  split at taken
  · cases taken
    cases fine
  · rename_i sound enough
    cases taken
    have sizes : cursor.remaining ≤ (cursor.extend more).remaining := by
      rw [remaining, remaining, List.length_append]
      exact Nat.sub_le_sub_right (Nat.le_add_right _ _) _
    have long : ¬ (cursor.extend more).remaining < count := by omega
    have symbols : (cursor.extend more).rest.take count = cursor.rest.take count := by
      rw [rest_extend, List.take_append_of_le_length]
      rw [length_rest]
      omega
    simp only [take, failed_extend, sound, long, ↓reduceIte, ↓reduceDIte, symbols,
      Bool.false_eq_true]
    rfl

end Cursor

/-- The parser works through its input from the front: what it does without running out of
input does not depend on what follows, and a failed cursor stays failed. -/
structure Online {ε β α : Type} (parser : (data : List β) → Parser ε data α) : Prop where
  sticky : ∀ {data : List β} {cursor after : Cursor data} {result : Except ε α},
    (parser data).run cursor = (result, after) → cursor.failed = true → after.failed = true
  stable : ∀ {data : List β} {cursor after : Cursor data} {result : Except ε α},
    (parser data).run cursor = (result, after) → after.failed = false → ∀ more,
      (parser (data ++ more)).run (cursor.extend more) = (result, after.extend more)

namespace Online

variable {ε β α γ : Type}

/-- A value needs no input. -/
theorem pure (value : α) : Online (fun data : List β => (pure value : Parser ε data α)) where
  sticky := by
    intro data cursor after result run failed
    cases run
    exact failed
  stable := by
    intro data cursor after result run _ more
    cases run
    rfl

/-- A refusal needs no input. -/
theorem throw (reason : ε) : Online (fun data : List β => (throw reason : Parser ε data α)) where
  sticky := by
    intro data cursor after result run failed
    cases run
    exact failed
  stable := by
    intro data cursor after result run _ more
    cases run
    rfl

/-- A fetch looks at what it takes. -/
theorem fetch (count : Nat) (placeholder : α) (decode : List β → α) :
    Online (fun data => (.ofReader (Cursor.fetch count placeholder decode) : Parser ε data α)) where
  sticky := by
    intro data cursor after result run failed
    rw [Parser.run_ofReader, Cursor.fetch_failed placeholder decode failed] at run
    cases run
    exact failed
  stable := by
    intro data cursor after result run fine more
    rw [Parser.run_ofReader, Cursor.fetch_eq] at run ⊢
    rcases taken : Cursor.take count cursor with ⟨symbols, middle⟩
    rw [taken] at run
    obtain rfl : middle = after := by cases symbols <;> exact congrArg Prod.snd run
    rw [Cursor.take_extend taken fine more]
    cases symbols <;> cases run <;> rfl

/-- A sequence looks at what its parts consume. -/
theorem bind {first : (data : List β) → Parser ε data α}
    {next : (data : List β) → α → Parser ε data γ} (firstOnline : Online first)
    (nextOnline : ∀ value, Online fun data => next data value) :
    Online fun data => first data >>= next data where
  sticky := by
    intro data cursor after result run failed
    rcases Parser.bind_cases run with ⟨value, middle, ran, rest⟩ | ⟨_, ran, _⟩
    · exact (nextOnline value).sticky rest (firstOnline.sticky ran failed)
    · exact firstOnline.sticky ran failed
  stable := by
    intro data cursor after result run fine more
    rcases Parser.bind_cases run with ⟨value, middle, ran, rest⟩ | ⟨reason, ran, rfl⟩
    · have middleFine : middle.failed = false := by
        rw [← Bool.not_eq_true]
        intro failed
        rw [(nextOnline value).sticky rest failed] at fine
        cases fine
      rw [Parser.bind_some (firstOnline.stable ran middleFine more)]
      exact (nextOnline value).stable rest fine more
    · rw [Parser.run_bind, firstOnline.stable ran fine more]

/-- One read after another. -/
theorem read {first : (data : List β) → Reader data α}
    {next : (data : List β) → α → Reader data γ}
    (firstOnline : Online fun data => (.ofReader (first data) : Parser ε data α))
    (nextOnline : ∀ value, Online fun data => (.ofReader (next data value) : Parser ε data γ)) :
    Online fun data => (.ofReader (first data >>= next data) : Parser ε data γ) :=
  firstOnline.bind nextOnline

/-- A parser that gives up on a failed cursor. -/
theorem unlessFailed {parser otherwise : (data : List β) → Parser ε data α}
    (online : Online parser)
    (idle : ∀ data (cursor : Cursor data), ((otherwise data).run cursor).2 = cursor) :
    Online fun data => Parser.unlessFailed (otherwise data) (parser data) := by
  have sticky : ∀ {data : List β} {cursor after : Cursor data} {result : Except ε α},
      (Parser.unlessFailed (otherwise data) (parser data)).run cursor = (result, after) →
        cursor.failed = true → after.failed = true := by
    intro data cursor after result run failed
    rw [Parser.unlessFailed_failed failed] at run
    have same := idle data cursor
    rw [run] at same
    rw [show after = cursor from same]
    exact failed
  refine ⟨sticky, ?_⟩
  intro data cursor after result run fine more
  cases failed : cursor.failed with
  | true =>
      rw [sticky run failed] at fine
      cases fine
  | false =>
      rw [Parser.unlessFailed_sound failed] at run
      rw [Parser.unlessFailed_sound (cursor.failed_extend more ▸ failed)]
      exact online.stable run fine more

/-- A repetition looks at what its rounds consume. -/
theorem repeated {parser : (data : List β) → Parser ε data α} (online : Online parser)
    (fits : α → Bool) (reason : ε) (count : Nat) :
    Online fun data => (parser data).repeated fits reason count := by
  induction count with
  | zero => exact pure []
  | succ count ih =>
      refine online.bind fun value => ?_
      by_cases itFits : fits value = true
      · simp only [itFits, ↓reduceIte]
        exact ih.bind fun values => pure (value :: values)
      · simp only [itFits]
        exact throw reason

/-- A parser that comes to the end of an input runs out of every shorter one. -/
theorem runsOut {parser : (data : List β) → Parser ε data α} (online : Online parser)
    {front more : List β} (cut : more ≠ []) {cursor : Cursor front} {result : Except ε α}
    {after : Cursor (front ++ more)}
    (whole : (parser (front ++ more)).run (cursor.extend more) = (result, after))
    (ended : after.rest = []) : ((parser front).run cursor).2.failed = true := by
  rcases short : (parser front).run cursor with ⟨early, place⟩
  rw [← Bool.not_eq_false]
  intro fine
  have same := online.stable short fine more
  rw [whole] at same
  cases same
  rw [Cursor.rest_extend, List.append_eq_nil_iff] at ended
  exact cut ended.2

end Online

end Foundation

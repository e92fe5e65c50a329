import Mathlib.Data.List.TakeDrop
import MarkdownExport.CommandLine.Arguments

/-! Arguments without an option. Every mention of an option can be taken out of accepted arguments,
however it is spelled. What is left is accepted too and means the same but for that option. -/
namespace MarkdownExport.CommandLine

deriving instance DecidableEq for Switch

/-! Spellings. -/

/-- What stands behind the first equals sign of a long switch. -/
def longValue? (body : Text) : Option Text :=
  match body.dropWhile (· ≠ '=') with
  | [] => none
  | _ :: value => some value

/-- What stands behind a one-letter switch in the same argument. -/
def letterValue? : Text → Option Text
  | [] => none
  | '=' :: value => some value
  | value => some value

def Switch.takesValue : Switch → Bool
  | .slot _ => true
  | _ => false

/-- Switches in a row without one of them, and whether that one has the next argument as its value. -/
def omitLetters (w : Switch) : Text → Text × Bool
  | [] => ([], false)
  | c :: cs =>
    match shortSwitches.lookup c with
    | none => (c :: cs, false)
    | some (.slot s) => if Switch.slot s = w then ([], cs.isEmpty) else (c :: cs, false)
    | some switch =>
      let (kept, valued) := omitLetters w cs
      (if switch = w then kept else c :: kept, valued)

/-- What is left of an argument, and whether the next argument goes with what is left out. -/
def omitArgument (w : Switch) : Text → List Text × Bool
  | '-' :: '-' :: body =>
    if longSwitch? (body.takeWhile (· ≠ '=')) = some w then
      ([], w.takesValue && (longValue? body).isNone)
    else (['-' :: '-' :: body], false)
  | '-' :: c :: cs =>
    let (kept, valued) := omitLetters w (c :: cs)
    (if kept.isEmpty then [] else ['-' :: kept], valued)
  | value => ([value], false)

/-- Arguments without a switch. Behind two dashes there are none. -/
def omitFrom (w : Switch) : (valued : Bool) → List Text → List Text
  | _, [] => []
  | true, _ :: arguments => omitFrom w false arguments
  | false, argument :: arguments =>
    if argument = ['-', '-'] then argument :: arguments
    else (omitArgument w argument).1 ++ omitFrom w (omitArgument w argument).2 arguments

def omitSwitch (w : Switch) (arguments : List Text) : List Text := omitFrom w false arguments

example : omitSwitch (.slot .output) ["-vo=x", "in", "--output", "y", "-voz", "--", "-oz"] =
    (["-v", "in", "-v", "--", "-oz"] : List Text) := by decide

/-- The same arguments as if a switch were not among them. -/
def Arguments.omitting (w : Switch) (a : Arguments) : Arguments where
  input := a.input
  output := if w = .slot .output then none else a.output
  dialect := if w = .slot .format then .gfm else a.dialect
  frontmatter := a.frontmatter && w ≠ .flag .frontmatter
  includeReport := a.includeReport && w ≠ .flag .includeReport
  strict := a.strict && w ≠ .flag .strict
  verbose := a.verbose && w ≠ .flag .verbose

/-- The four shapes of an argument. -/
inductive Shape : Text → Prop
  | dashes : Shape ['-', '-']
  | long {body : Text} : body ≠ [] → Shape ('-' :: '-' :: body)
  | letters {c : Char} (cs : Text) : c ≠ '-' → Shape ('-' :: c :: cs)
  | value {argument : Text} : (∀ c cs, argument ≠ '-' :: c :: cs) → Shape argument

theorem shape (argument : Text) : Shape argument := by
  match argument with
  | [] => exact .value fun _ _ h => by cases h
  | [c] => exact .value fun _ _ h => by cases h
  | c :: d :: cs =>
    by_cases hc : c = '-'
    · subst hc
      by_cases hd : d = '-'
      · subst hd
        cases cs with
        | nil => exact .dashes
        | cons e cs => exact .long (List.cons_ne_nil e cs)
      · exact .letters cs hd
    · exact .value fun _ _ h => hc (List.cons.inj h).1

namespace Reading
variable {r t u : Reading} {s : Slot} {f : Flag} {value : Text} {value? : Option Text}
  {argument : Text} {arguments : List Text} {a : Arguments} {w : Switch}

/-! What a step needs, and what it gives. -/

theorem fill_eq_ok :
    r.fill s value = .ok t ↔
      match s with
      | .input => value ≠ [] ∧ t = { r with input := some value }
      | .output => r.output = none ∧ value ≠ [] ∧ t = { r with output := some value }
      | .format => r.dialect = none ∧
        ∃ d, Dialect.ofName? value = some d ∧ t = { r with dialect := some d } := by
  cases s with
  | input => cases value <;> simp [fill, eq_comm]
  | output =>
    cases houtput : r.output with
    | none => cases value <;> simp [fill, houtput, eq_comm]
    | some path => simp [fill, houtput]
  | format =>
    cases hdialect : r.dialect with
    | none => cases hname : Dialect.ofName? value <;> simp [fill, hdialect, hname, eq_comm]
    | some d => simp [fill, hdialect]

theorem fill_frame (h : r.fill s value = .ok t) :
    t.waiting = r.waiting ∧ t.trailing = r.trailing ∧
      t.input.isSome = (r.input.isSome || s == .input) := by
  rw [fill_eq_ok] at h
  cases s with
  | input =>
    obtain ⟨-, rfl⟩ := h
    exact ⟨rfl, rfl, (Bool.or_true _).symm⟩
  | output =>
    obtain ⟨-, -, rfl⟩ := h
    exact ⟨rfl, rfl, (Bool.or_false _).symm⟩
  | format =>
    obtain ⟨-, d, -, rfl⟩ := h
    exact ⟨rfl, rfl, (Bool.or_false _).symm⟩

theorem settle_eq_self (h : r.waiting = none) : r.settle = .ok r := by
  simp [settle, h]

theorem settle_eq_ok :
    r.settle = .ok t ↔
      r.waiting = none ∧ t = r ∨
        ∃ s value, r.waiting = some (s, some value) ∧
          { r with waiting := none }.fill s value = .ok t := by
  unfold settle
  split
  · rename_i hwait
    simp [hwait, eq_comm]
  · rename_i hwait
    simp [hwait]
  · rename_i s value hwait
    simp only [hwait, reduceCtorEq, false_and, false_or]
    constructor
    · exact fun h => ⟨s, value, rfl, h⟩
    · rintro ⟨s, value, ⟨⟩, h⟩
      exact h

theorem settle_waiting (h : r.settle = .ok t) : t.waiting = none := by
  obtain ⟨hwait, rfl⟩ | ⟨s, value, -, hfill⟩ := settle_eq_ok.mp h
  · exact hwait
  · exact (fill_frame hfill).1

theorem settle_trailing (h : r.settle = .ok t) : t.trailing = r.trailing := by
  obtain ⟨-, rfl⟩ | ⟨s, value, -, hfill⟩ := settle_eq_ok.mp h
  · rfl
  · exact (fill_frame hfill).2.1

theorem raise_eq_ok :
    r.raise f = .ok u ↔
      ∃ t, r.settle = .ok t ∧ f ∉ t.flags ∧ u = { t with flags := f :: t.flags } := by
  unfold raise
  cases r.settle with
  | error m =>
    simp only [reduceCtorEq, false_and, exists_false, iff_false]
    exact fun h => by cases h
  | ok t =>
    change (if f ∈ t.flags then _ else _) = _ ↔ _
    by_cases hf : f ∈ t.flags <;> simp [hf, eq_comm]

theorem await_eq_ok :
    r.await s value? = .ok u ↔
      ∃ t, r.settle = .ok t ∧
        match value? with
        | some value => t.fill s value = .ok u
        | none => u = { t with waiting := some (s, none) } := by
  unfold await
  cases r.settle with
  | error m =>
    simp only [reduceCtorEq, false_and, exists_false, iff_false]
    exact fun h => by cases h
  | ok t =>
    cases value? with
    | none => simp [bind, Except.bind, eq_comm]
    | some value => simp [bind, Except.bind]

theorem ofExcept_eq_next {x : Except Misuse Reading} : Step.ofExcept x = .next u ↔ x = .ok u := by
  cases x <;> simp [Step.ofExcept]

theorem answer_ne_next (request : Request) : r.answer request ≠ .next u := by
  unfold answer
  split <;> simp

theorem long_eq_next {body : Text} :
    r.long body = .next u ↔
      (∃ s, longSwitch? (body.takeWhile (· ≠ '=')) = some (.slot s) ∧
        r.await s (longValue? body) = .ok u) ∨
      ∃ f, longSwitch? (body.takeWhile (· ≠ '=')) = some (.flag f) ∧ longValue? body = none ∧
        r.raise f = .ok u := by
  unfold long longValue?
  rw [List.span_eq_takeWhile_dropWhile]
  cases body.dropWhile (· ≠ '=') with
  | nil =>
    dsimp only
    cases longSwitch? (body.takeWhile (· ≠ '=')) with
    | none => simp
    | some switch => cases switch <;> simp [ofExcept_eq_next, answer_ne_next]
  | cons e value =>
    dsimp only
    cases longSwitch? (body.takeWhile (· ≠ '=')) with
    | none => simp
    | some switch => cases switch <;> simp [ofExcept_eq_next]

theorem short_eq_next {c : Char} {cs : Text} :
    r.short (c :: cs) = .next u ↔
      (∃ s, shortSwitches.lookup c = some (.slot s) ∧ r.await s (letterValue? cs) = .ok u) ∨
      ∃ f t, shortSwitches.lookup c = some (.flag f) ∧ r.raise f = .ok t ∧
        t.short cs = .next u := by
  conv_lhs => unfold short
  cases shortSwitches.lookup c with
  | none => simp
  | some switch =>
    cases switch with
    | slot s =>
      refine ofExcept_eq_next.trans ?_
      change r.await s (letterValue? cs) = _ ↔ _
      simp
    | flag f => cases hraise : r.raise f <;> simp [hraise]
    | version => simp [answer_ne_next]
    | help => simp [answer_ne_next]

theorem positional_eq_next :
    r.positional argument = .next u ↔
      ∃ t, r.settle = .ok t ∧ t.input = none ∧
        u = { t with waiting := some (.input, some argument) } := by
  have hinput {t : Reading} (h : r.settle = .ok t) :
      (r.input.isSome || r.waiting.any fun w => w.1 == .input) = t.input.isSome := by
    obtain ⟨hwait, rfl⟩ | ⟨s, value, hwait, hfill⟩ := settle_eq_ok.mp h
    · simp [hwait]
    · rw [(fill_frame hfill).2.2, hwait]
      rfl
  unfold positional
  cases hsettle : r.settle with
  | error m =>
    by_cases hnamed : r.input.isSome || r.waiting.any fun w => w.1 == .input <;> simp [hnamed]
  | ok t =>
    rw [hinput hsettle]
    cases hnone : t.input <;> simp [hnone, eq_comm]

/-! A run of steps. -/

theorem step_trailing (h : r.trailing) : r.step argument = r.positional argument := by
  simp [step, h]

theorem step_dashes (h : r.trailing = false) :
    r.step ['-', '-'] = .next { r with trailing := true } := by
  simp [step, h]

theorem step_long (h : r.trailing = false) {body : Text} (hbody : body ≠ []) :
    r.step ('-' :: '-' :: body) = r.long body := by
  cases body with
  | nil => exact absurd rfl hbody
  | cons c cs => simp [step, h]

theorem step_letters (h : r.trailing = false) {c : Char} (cs : Text) (hc : c ≠ '-') :
    r.step ('-' :: c :: cs) = r.short (c :: cs) := by
  simp [step, h, hc]

theorem step_value (h : r.trailing = false) (hargument : ∀ c cs, argument ≠ '-' :: c :: cs) :
    r.step argument =
      match r.waiting with
      | some (s, none) => .next { r with waiting := some (s, some argument) }
      | _ => r.positional argument := by
  unfold step
  rw [if_neg (by simp [h])]
  split
  · exact absurd rfl (hargument '-' [])
  · exact absurd rfl (hargument '-' _)
  · exact absurd rfl (hargument _ _)
  · rfl

theorem answer_ne_convert {request : Request} (h : request ≠ .convert a) :
    r.answer request ≠ .stop (.convert a) := by
  unfold answer
  split
  · simpa using h
  · simp

theorem ofExcept_ne_convert (x : Except Misuse Reading) :
    Step.ofExcept x ≠ .stop (.convert a) := by
  cases x <;> simp [Step.ofExcept]

theorem short_ne_convert (letters : Text) : r.short letters ≠ .stop (.convert a) := by
  induction letters generalizing r with
  | nil => simp [short]
  | cons c cs ih =>
    unfold short
    split
    · simp
    · split
      · exact ih
      · simp
    · exact ofExcept_ne_convert _
    · exact answer_ne_convert (by simp)
    · exact answer_ne_convert (by simp)

theorem long_ne_convert (body : Text) : r.long body ≠ .stop (.convert a) := by
  unfold long
  dsimp only
  split
  · simp
  · exact ofExcept_ne_convert _
  · exact ofExcept_ne_convert _
  · simp
  · exact answer_ne_convert (by simp)
  · exact answer_ne_convert (by simp)
  · simp

theorem positional_ne_convert : r.positional argument ≠ .stop (.convert a) := by
  unfold positional
  dsimp only
  split
  · simp
  · split <;> simp

/-- No step accepts the arguments by itself. -/
theorem step_ne_convert : r.step argument ≠ .stop (.convert a) := by
  unfold step
  split
  · exact positional_ne_convert
  · split
    · simp
    · exact long_ne_convert _
    · exact short_ne_convert _
    · split
      · simp
      · exact positional_ne_convert

theorem readAll_cons_eq_convert :
    readAll (argument :: arguments) r = .convert a ↔
      ∃ u, r.step argument = .next u ∧ readAll arguments u = .convert a := by
  rw [readAll]
  cases hstep : r.step argument with
  | next u => simp
  | stop request =>
    have hrequest : request ≠ .convert a := by
      rintro rfl
      exact step_ne_convert hstep
    simp [hrequest]

theorem raise_settled (h : r.settle = .ok t) : r.raise f = t.raise f := by
  rw [raise, raise, h, settle_eq_self (settle_waiting h)]

theorem await_settled (h : r.settle = .ok t) : r.await s value? = t.await s value? := by
  rw [await, await, h, settle_eq_self (settle_waiting h)]

/-- A slot that is to be filled anyway may be filled before a step. -/
theorem step_settled (h : r.settle = .ok t) (hargument : r.trailing ∨ argument ≠ ['-', '-']) :
    r.step argument = .next u ↔ t.step argument = .next u := by
  have hself := settle_eq_self (settle_waiting h)
  have htrailing := settle_trailing h
  cases htrail : r.trailing with
  | true =>
    rw [step_trailing htrail, step_trailing (htrailing.trans htrail), positional_eq_next,
      positional_eq_next, h, hself]
  | false =>
    rw [htrail] at htrailing
    cases shape argument with
    | dashes => simp [htrail] at hargument
    | long hbody =>
      rw [step_long htrail hbody, step_long htrailing hbody, long_eq_next, long_eq_next]
      simp only [await_settled h, raise_settled h]
    | letters cs hc =>
      rw [step_letters htrail cs hc, step_letters htrailing cs hc, short_eq_next, short_eq_next]
      simp only [await_settled h, raise_settled h]
    | value hvalue =>
      rw [step_value htrail hvalue, step_value htrailing hvalue, settle_waiting h]
      obtain ⟨hwait, rfl⟩ | ⟨s, value, hwait, -⟩ := settle_eq_ok.mp h
      · rw [hwait]
      · rw [hwait]
        dsimp only
        rw [positional_eq_next, positional_eq_next, h, hself]

theorem settle_behindDashes (r : Reading) :
    { r with trailing := true }.settle = r.settle.map fun t => { t with trailing := true } := by
  have hfill (q : Reading) (s : Slot) (value : Text) :
      { q with trailing := true }.fill s value =
        (q.fill s value).map fun t => { t with trailing := true } := by
    cases s with
    | input => cases value <;> rfl
    | output => cases houtput : q.output <;> cases value <;> simp [fill, houtput, Except.map]
    | format =>
      cases hdialect : q.dialect <;> cases hname : Dialect.ofName? value <;>
        simp [fill, hdialect, hname, Except.map]
  unfold settle
  cases hwait : r.waiting with
  | none => simp [hwait, Except.map]
  | some slot =>
    obtain ⟨s, value?⟩ := slot
    cases value? with
    | none => simp [Except.map]
    | some value => simpa [hwait] using hfill { r with waiting := none } s value

/-- A slot that is to be filled anyway may be filled at once. -/
theorem readAll_settled (h : r.settle = .ok t) :
    readAll arguments r = .convert a ↔ readAll arguments t = .convert a := by
  induction arguments generalizing r t with
  | nil => rw [readAll, readAll, finish, finish, h, settle_eq_self (settle_waiting h)]
  | cons argument arguments ih =>
    rw [readAll_cons_eq_convert, readAll_cons_eq_convert]
    by_cases hargument : r.trailing ∨ argument ≠ ['-', '-']
    · simp only [step_settled h hargument]
    · obtain ⟨htrail, rfl⟩ : r.trailing = false ∧ argument = ['-', '-'] := by simpa using hargument
      have hdashes : { r with trailing := true }.settle = .ok { t with trailing := true } := by
        rw [settle_behindDashes, h]
        rfl
      rw [step_dashes htrail, step_dashes ((settle_trailing h).trans htrail)]
      simpa using ih hdashes

/-- In accepted arguments a slot without a value gets it from the next argument. -/
theorem readAll_cases (h : readAll arguments r = .convert a) :
    (∃ t, r.settle = .ok t) ∨
      ∃ s value rest, r.waiting = some (s, none) ∧ r.trailing = false ∧
        (∀ c cs, value ≠ '-' :: c :: cs) ∧ arguments = value :: rest := by
  induction arguments generalizing r with
  | nil =>
    cases hsettle : r.settle with
    | ok t => exact .inl ⟨t, rfl⟩
    | error m =>
      rw [readAll, finish, hsettle] at h
      cases h
  | cons argument arguments ih =>
    obtain ⟨u, hstep, hu⟩ := readAll_cons_eq_convert.mp h
    cases htrail : r.trailing with
    | true =>
      rw [step_trailing htrail] at hstep
      obtain ⟨t, ht, -⟩ := positional_eq_next.mp hstep
      exact .inl ⟨t, ht⟩
    | false =>
      cases shape argument with
      | dashes =>
        -- two dashes leave the slot as it is, and behind them no argument is its value
        rw [step_dashes htrail, Step.next.injEq] at hstep
        subst hstep
        obtain ⟨t, ht⟩ | ⟨s, value, rest, -, hcontra, -⟩ := ih hu
        · rw [settle_behindDashes] at ht
          cases hsettle : r.settle with
          | ok t => exact .inl ⟨t, rfl⟩
          | error m =>
            rw [hsettle] at ht
            cases ht
        · cases hcontra
      | long hbody =>
        rw [step_long htrail hbody, long_eq_next] at hstep
        obtain ⟨s, -, hawait⟩ | ⟨f, -, -, hraise⟩ := hstep
        · obtain ⟨t, ht, -⟩ := await_eq_ok.mp hawait
          exact .inl ⟨t, ht⟩
        · obtain ⟨t, ht, -⟩ := raise_eq_ok.mp hraise
          exact .inl ⟨t, ht⟩
      | letters cs hc =>
        rw [step_letters htrail cs hc, short_eq_next] at hstep
        obtain ⟨s, -, hawait⟩ | ⟨f, q, -, hraise, -⟩ := hstep
        · obtain ⟨t, ht, -⟩ := await_eq_ok.mp hawait
          exact .inl ⟨t, ht⟩
        · obtain ⟨t, ht, -⟩ := raise_eq_ok.mp hraise
          exact .inl ⟨t, ht⟩
      | value hvalue =>
        rw [step_value htrail hvalue] at hstep
        split at hstep
        · rename_i s hwait
          exact .inr ⟨s, argument, arguments, hwait, rfl, hvalue, rfl⟩
        · obtain ⟨t, ht, -⟩ := positional_eq_next.mp hstep
          exact .inl ⟨t, ht⟩

/-! Without a switch. -/

/-- The same reading as if a switch had not been named. -/
def omitting (w : Switch) (r : Reading) : Reading where
  input := r.input
  output := if w = .slot .output then none else r.output
  dialect := if w = .slot .format then none else r.dialect
  flags := r.flags.filter fun f => .flag f ≠ w
  waiting := r.waiting.filter fun slot => .slot slot.1 ≠ w
  trailing := r.trailing

/-- The slot that waits is that of the switch and has no value yet, or else it is another one. -/
def Expects (w : Switch) : (valued : Bool) → Reading → Prop
  | true, r => ∃ s, .slot s = w ∧ r.waiting = some (s, none)
  | false, r => ∀ s value?, r.waiting = some (s, value?) → .slot s ≠ w

theorem fill_omitting (hs : .slot s ≠ w) :
    (r.omitting w).fill s value = (r.fill s value).map (omitting w) := by
  cases s with
  | input => cases value <;> rfl
  | output =>
    have hw : w ≠ .slot .output := fun h => hs h.symm
    cases houtput : r.output <;> cases value <;> simp [fill, omitting, houtput, hw, Except.map]
  | format =>
    have hw : w ≠ .slot .format := fun h => hs h.symm
    cases hdialect : r.dialect <;> cases hname : Dialect.ofName? value <;>
      simp [fill, omitting, hdialect, hname, hw, Except.map]

theorem fill_omitted (hs : s ≠ .input) (h : r.fill s value = .ok t) :
    t.omitting (.slot s) = r.omitting (.slot s) := by
  rw [fill_eq_ok] at h
  cases s with
  | input => exact absurd rfl hs
  | output =>
    obtain ⟨-, -, rfl⟩ := h
    simp [omitting]
  | format =>
    obtain ⟨-, d, -, rfl⟩ := h
    simp [omitting]

theorem waiting_omitting (hfree : r.Expects w false) : (r.omitting w).waiting = r.waiting := by
  cases hwait : r.waiting with
  | none => simp [omitting, hwait]
  | some slot =>
    have hslot : .slot slot.1 ≠ w := hfree slot.1 slot.2 hwait
    simp [omitting, hwait, Option.filter, hslot]

theorem settle_omitting (hfree : r.Expects w false) :
    (r.omitting w).settle = r.settle.map (omitting w) := by
  unfold settle
  rw [waiting_omitting hfree]
  cases hwait : r.waiting with
  | none => rfl
  | some slot =>
    obtain ⟨s, value?⟩ := slot
    cases value? with
    | none => rfl
    | some value =>
      have hs : .slot s ≠ w := hfree s (some value) hwait
      rw [← fill_omitting hs]
      simp [omitting]

theorem expects_of_waiting (h : r.waiting = none) : r.Expects w false := by
  intro s value? hwait
  rw [h] at hwait
  cases hwait

theorem raise_omitting (hwait : r.waiting = none) (hf : .flag f ≠ w) (h : r.raise f = .ok u) :
    (r.omitting w).raise f = .ok (u.omitting w) := by
  obtain ⟨t, ht, hnew, rfl⟩ := raise_eq_ok.mp h
  cases (settle_eq_self hwait).symm.trans ht
  rw [raise_eq_ok]
  refine ⟨r.omitting w, by rw [settle_omitting (expects_of_waiting hwait), ht]; rfl, ?_, ?_⟩
  · simp [omitting, hnew]
  · simp [omitting, hf]

theorem raise_omitted (hwait : r.waiting = none) (h : r.raise f = .ok u) :
    u.omitting (.flag f) = r.omitting (.flag f) := by
  obtain ⟨t, ht, -, rfl⟩ := raise_eq_ok.mp h
  cases (settle_eq_self hwait).symm.trans ht
  simp [omitting]

theorem raise_frame (h : r.raise f = .ok u) : u.waiting = none ∧ u.trailing = r.trailing := by
  obtain ⟨t, ht, -, rfl⟩ := raise_eq_ok.mp h
  have hwait : t.waiting = none := settle_waiting ht
  have htrail : t.trailing = r.trailing := settle_trailing ht
  exact ⟨hwait, htrail⟩

theorem await_omitting (hwait : r.waiting = none) (hs : .slot s ≠ w)
    (h : r.await s value? = .ok u) : (r.omitting w).await s value? = .ok (u.omitting w) := by
  obtain ⟨t, ht, hvalue⟩ := await_eq_ok.mp h
  cases (settle_eq_self hwait).symm.trans ht
  rw [await_eq_ok]
  refine ⟨r.omitting w, by rw [settle_omitting (expects_of_waiting hwait), ht]; rfl, ?_⟩
  cases value? with
  | none =>
    subst hvalue
    simp [omitting, hs]
  | some value =>
    dsimp only at hvalue ⊢
    rw [fill_omitting hs, hvalue]
    rfl

theorem await_omitted (hwait : r.waiting = none) (hs : s ≠ .input)
    (h : r.await s value? = .ok u) : u.omitting (.slot s) = r.omitting (.slot s) := by
  obtain ⟨t, ht, hvalue⟩ := await_eq_ok.mp h
  cases (settle_eq_self hwait).symm.trans ht
  cases value? with
  | none =>
    subst hvalue
    simp [omitting, hwait]
  | some value => exact fill_omitted hs hvalue

theorem await_trailing (h : r.await s value? = .ok u) : u.trailing = r.trailing := by
  obtain ⟨t, ht, hvalue⟩ := await_eq_ok.mp h
  have htrail : t.trailing = r.trailing := settle_trailing ht
  cases value? with
  | none =>
    subst hvalue
    exact htrail
  | some value => exact (fill_frame hvalue).2.1.trans htrail

/-- A slot that has just been named is the switch's, with its value to come, or is another one. -/
theorem await_expects (h : r.await s value? = .ok u) :
    u.Expects w (decide (.slot s = w) && value?.isNone) := by
  obtain ⟨t, ht, hvalue⟩ := await_eq_ok.mp h
  cases value? with
  | some value =>
    have hwait : u.waiting = none := (fill_frame hvalue).1.trans (settle_waiting ht)
    rw [Option.isNone_some, Bool.and_false]
    exact expects_of_waiting hwait
  | none =>
    subst hvalue
    by_cases hs : .slot s = w
    · rw [decide_eq_true hs]
      exact ⟨s, hs, rfl⟩
    · rw [decide_eq_false hs]
      rintro _ _ ⟨⟩
      exact hs

theorem letterValue?_isNone (cs : Text) : (letterValue? cs).isNone = cs.isEmpty := by
  unfold letterValue?
  split <;> simp_all

/-- Without a switch a row of letters is read to the same, but for that switch. -/
theorem short_omitLetters (hw : w ≠ .slot .input) {letters : Text} (hwait : r.waiting = none)
    (h : r.short letters = .next u) :
    (r.omitting w).short (omitLetters w letters).1 = .next (u.omitting w) ∧
      u.Expects w (omitLetters w letters).2 ∧ u.trailing = r.trailing := by
  induction letters generalizing r with
  | nil =>
    rw [short, Step.next.injEq] at h
    subst h
    exact ⟨rfl, expects_of_waiting hwait, rfl⟩
  | cons c cs ih =>
    obtain ⟨s, hswitch, hawait⟩ | ⟨f, t, hswitch, hraise, hrest⟩ := short_eq_next.mp h
    · have hexpects := await_expects hawait (w := w)
      rw [letterValue?_isNone] at hexpects
      rw [omitLetters, hswitch]
      dsimp only
      by_cases hs : .slot s = w
      · have hinput : s ≠ .input := by
          rintro rfl
          exact hw hs.symm
        rw [decide_eq_true hs, Bool.true_and] at hexpects
        rw [if_pos hs]
        refine ⟨?_, hexpects, await_trailing hawait⟩
        rw [short, ← hs, await_omitted hwait hinput hawait]
      · rw [decide_eq_false hs, Bool.false_and] at hexpects
        rw [if_neg hs]
        exact ⟨short_eq_next.mpr (.inl ⟨s, hswitch, await_omitting hwait hs hawait⟩), hexpects,
          await_trailing hawait⟩
    · obtain ⟨hwait', htrail⟩ := raise_frame hraise
      obtain ⟨hread, hexpects, htrail'⟩ := ih hwait' hrest
      rw [omitLetters, hswitch]
      dsimp only
      refine ⟨?_, hexpects, htrail'.trans htrail⟩
      by_cases hf : .flag f = w
      · rw [if_pos hf]
        subst hf
        rw [raise_omitted hwait hraise] at hread
        exact hread
      · rw [if_neg hf]
        exact short_eq_next.mpr
          (.inr ⟨f, _, hswitch, raise_omitting hwait hf hraise, hread⟩)

/-- A long switch is the one that is left out, or is read as before. -/
theorem long_omitting (hw : w ≠ .slot .input) {body : Text} (hwait : r.waiting = none)
    (h : r.long body = .next u) :
    (longSwitch? (body.takeWhile (· ≠ '=')) = some w →
        u.omitting w = r.omitting w ∧ u.Expects w (w.takesValue && (longValue? body).isNone)) ∧
      (longSwitch? (body.takeWhile (· ≠ '=')) ≠ some w →
        (r.omitting w).long body = .next (u.omitting w) ∧ u.Expects w false) ∧
      u.trailing = r.trailing := by
  obtain ⟨s, hswitch, hawait⟩ | ⟨f, hswitch, hvalue, hraise⟩ := long_eq_next.mp h
  · have hexpects := await_expects hawait (w := w)
    refine ⟨fun hname => ?_, fun hname => ?_, await_trailing hawait⟩
    · cases hswitch.symm.trans hname
      have hinput : s ≠ .input := by
        rintro rfl
        exact hw rfl
      rw [decide_eq_true rfl] at hexpects
      exact ⟨await_omitted hwait hinput hawait, hexpects⟩
    · have hs : .slot s ≠ w := fun heq => hname (heq ▸ hswitch)
      rw [decide_eq_false hs, Bool.false_and] at hexpects
      exact ⟨long_eq_next.mpr (.inl ⟨s, hswitch, await_omitting hwait hs hawait⟩), hexpects⟩
  · obtain ⟨hwait', htrail⟩ := raise_frame hraise
    refine ⟨fun hname => ?_, fun hname => ?_, htrail⟩
    · cases hswitch.symm.trans hname
      exact ⟨raise_omitted hwait hraise, expects_of_waiting hwait'⟩
    · have hf : .flag f ≠ w := fun heq => hname (heq ▸ hswitch)
      exact ⟨long_eq_next.mpr (.inr ⟨f, hswitch, hvalue, raise_omitting hwait hf hraise⟩),
        expects_of_waiting hwait'⟩

theorem positional_omitting (hw : w ≠ .slot .input) (hfree : r.Expects w false)
    (h : r.positional argument = .next u) :
    (r.omitting w).positional argument = .next (u.omitting w) ∧ u.Expects w false ∧
      u.trailing = r.trailing := by
  have hinput : .slot .input ≠ w := hw.symm
  obtain ⟨t, ht, hnone, rfl⟩ := positional_eq_next.mp h
  have htrail : t.trailing = r.trailing := settle_trailing ht
  refine ⟨positional_eq_next.mpr ⟨t.omitting w, ?_, hnone, ?_⟩, ?_, htrail⟩
  · rw [settle_omitting hfree, ht]
    rfl
  · simp [omitting, hinput]
  · rintro _ _ ⟨⟩
    exact hinput

theorem omitArgument_letters {c : Char} (cs : Text) (hc : c ≠ '-') :
    omitArgument w ('-' :: c :: cs) =
      (if (omitLetters w (c :: cs)).1.isEmpty then [] else ['-' :: (omitLetters w (c :: cs)).1],
        (omitLetters w (c :: cs)).2) := by
  unfold omitArgument
  split
  · rename_i heq
    exact absurd (List.cons.inj (List.cons.inj heq).2).1 hc
  · rename_i heq
    cases heq
    rfl
  · rename_i hargument
    exact absurd rfl (hargument c cs)

theorem omitArgument_value (hargument : ∀ c cs, argument ≠ '-' :: c :: cs) :
    omitArgument w argument = ([argument], false) := by
  unfold omitArgument
  split
  · exact absurd rfl (hargument _ _)
  · exact absurd rfl (hargument _ _)
  · rfl

/-- An argument without the switch is read to the same, but for the switch. -/
theorem step_omitArgument (hw : w ≠ .slot .input) (hwait : r.waiting = none)
    (htrail : r.trailing = false) (hargument : argument ≠ ['-', '-'])
    (h : r.step argument = .next u) :
    (∀ rest a, readAll rest (u.omitting w) = .convert a →
        readAll ((omitArgument w argument).1 ++ rest) (r.omitting w) = .convert a) ∧
      u.Expects w (omitArgument w argument).2 ∧ u.trailing = false := by
  have htrail' : (r.omitting w).trailing = false := htrail
  have hread {kept : Text} (hkept : (r.omitting w).step kept = .next (u.omitting w))
      (rest : List Text) (a : Arguments) (hrest : readAll rest (u.omitting w) = .convert a) :
      readAll ([kept] ++ rest) (r.omitting w) = .convert a :=
    readAll_cons_eq_convert.mpr ⟨_, hkept, hrest⟩
  cases shape argument with
  | dashes => exact absurd rfl hargument
  | @long body hbody =>
    rw [step_long htrail hbody] at h
    obtain ⟨hnamed, hother, htrail''⟩ := long_omitting hw hwait h
    rw [omitArgument]
    by_cases hname : longSwitch? (body.takeWhile (· ≠ '=')) = some w
    · obtain ⟨hsame, hexpects⟩ := hnamed hname
      rw [if_pos hname]
      refine ⟨fun rest a hrest => ?_, hexpects, htrail''.trans htrail⟩
      rw [hsame] at hrest
      exact hrest
    · obtain ⟨hlong, hexpects⟩ := hother hname
      rw [if_neg hname]
      exact ⟨hread ((step_long htrail' hbody).trans hlong), hexpects, htrail''.trans htrail⟩
  | @letters c cs hc =>
    rw [step_letters htrail cs hc] at h
    obtain ⟨hshort, hexpects, htrail''⟩ := short_omitLetters hw hwait h
    rw [omitArgument_letters cs hc]
    refine ⟨fun rest a hrest => ?_, hexpects, htrail''.trans htrail⟩
    cases hkept : (omitLetters w (c :: cs)).1 with
    | nil =>
      rw [hkept, short, Step.next.injEq] at hshort
      rw [hshort]
      exact hrest
    | cons k ks =>
      rw [hkept] at hshort
      have hk : k ≠ '-' := by
        rintro rfl
        obtain ⟨s, hswitch, -⟩ | ⟨f, t, hswitch, -⟩ := short_eq_next.mp hshort
        · cases hswitch
        · cases hswitch
      exact hread ((step_letters htrail' ks hk).trans hshort) rest a hrest
  | value hvalue =>
    rw [step_value htrail hvalue, hwait] at h
    obtain ⟨hpositional, hexpects, htrail''⟩ :=
      positional_omitting hw (expects_of_waiting hwait) h
    rw [omitArgument_value hvalue]
    refine ⟨hread ?_, hexpects, htrail''.trans htrail⟩
    rw [step_value htrail' hvalue, waiting_omitting (expects_of_waiting hwait), hwait]
    exact hpositional

theorem finish_omitting (hfree : r.Expects w false) (h : r.finish = .convert a) :
    (r.omitting w).finish = .convert (a.omitting w) := by
  unfold finish at h ⊢
  rw [settle_omitting hfree]
  cases hsettle : r.settle with
  | error m =>
    rw [hsettle] at h
    cases h
  | ok t =>
    rw [hsettle] at h
    cases hinput : t.input with
    | none =>
      simp only [hinput] at h
      cases h
    | some input =>
      simp only [hinput, Request.convert.injEq] at h
      subst h
      have hinput' : (t.omitting w).input = some input := hinput
      have hflag (f : Flag) : decide (f ∈ (t.omitting w).flags) =
          (decide (f ∈ t.flags) && decide (w ≠ .flag f)) := by
        rw [← Bool.decide_and, decide_eq_decide, omitting, List.mem_filter, decide_eq_true_iff]
        exact and_congr_right fun _ => ne_comm
      have hdialect : (t.omitting w).dialect.getD .gfm =
          if w = .slot .format then .gfm else t.dialect.getD .gfm := by
        simp only [omitting]
        split <;> rfl
      simp only [Except.map, hinput', hflag, hdialect]
      rfl

/-- Behind two dashes nothing names a switch. -/
theorem readAll_behindDashes (hw : w ≠ .slot .input) (hfree : r.Expects w false)
    (htrail : r.trailing) (h : readAll arguments r = .convert a) :
    readAll arguments (r.omitting w) = .convert (a.omitting w) := by
  induction arguments generalizing r with
  | nil => exact finish_omitting hfree h
  | cons argument arguments ih =>
    obtain ⟨u, hstep, hu⟩ := readAll_cons_eq_convert.mp h
    rw [step_trailing htrail] at hstep
    obtain ⟨hpositional, hexpects, htrail'⟩ := positional_omitting hw hfree hstep
    have htrailing : (r.omitting w).trailing = true := htrail
    have hstep' := (step_trailing htrailing).trans hpositional
    exact readAll_cons_eq_convert.mpr
      ⟨u.omitting w, hstep', ih hexpects (htrail'.trans htrail) hu⟩

theorem settle_ne_ok (h : r.waiting = some (s, none)) : r.settle ≠ .ok t := by
  simp [settle, h]

/-- The next argument is the value of a slot that waits for one. -/
theorem readAll_of_value (hwait : r.waiting = some (s, none)) (htrail : r.trailing = false)
    (hvalue : ∀ c cs, value ≠ '-' :: c :: cs) :
    readAll (value :: arguments) r = .convert a ↔
      readAll arguments { r with waiting := some (s, some value) } = .convert a := by
  have hstep : r.step value = .next { r with waiting := some (s, some value) } := by
    rw [step_value htrail hvalue, hwait]
  rw [readAll_cons_eq_convert, hstep]
  simp

/-- With its value a slot is filled, and without its switch that leaves no trace. -/
theorem exists_filled (hinput : s ≠ .input) (hwait : r.waiting = some (s, none))
    (h : readAll arguments { r with waiting := some (s, some value) } = .convert a) :
    ∃ t : Reading, t.waiting = none ∧ t.trailing = r.trailing ∧
      t.omitting (.slot s) = r.omitting (.slot s) ∧ readAll arguments t = .convert a := by
  obtain ⟨t, ht⟩ | ⟨_, _, _, hcontra, -⟩ := readAll_cases h
  · have htrail := settle_trailing ht
    refine ⟨t, settle_waiting ht, htrail, ?_, (readAll_settled ht).mp h⟩
    obtain ⟨hcontra, -⟩ | ⟨_, _, heq, hfill⟩ := settle_eq_ok.mp ht
    · cases hcontra
    · cases heq
      rw [fill_omitted hinput hfill]
      simp [omitting, hwait, Option.filter]
  · cases hcontra

/-- Without a switch the arguments are read to the same, but for that switch. -/
theorem readAll_omitFrom (hw : w ≠ .slot .input) {valued : Bool} (hexpects : r.Expects w valued)
    (htrail : r.trailing = false) (h : readAll arguments r = .convert a) :
    readAll (omitFrom w valued arguments) (r.omitting w) = .convert (a.omitting w) := by
  induction arguments generalizing r valued with
  | nil =>
    obtain ⟨t, ht⟩ | ⟨s, value, rest, -, -, -, heq⟩ := readAll_cases h
    · cases valued with
      | true =>
        obtain ⟨s, -, hwait⟩ := hexpects
        exact absurd ht (settle_ne_ok hwait)
      | false =>
        rw [omitFrom]
        exact finish_omitting hexpects h
    · cases heq
  | cons argument arguments ih =>
    obtain ⟨t, ht⟩ | ⟨s, value, rest, hwait, -, hvalue, heq⟩ := readAll_cases h
    · cases valued with
      | true =>
        obtain ⟨s, -, hwait⟩ := hexpects
        exact absurd ht (settle_ne_ok hwait)
      | false =>
        -- whatever waits is filled first on both sides, so that no slot waits before the step
        have hwait : t.waiting = none := settle_waiting ht
        have htrail' : t.trailing = false := (settle_trailing ht).trans htrail
        have hsettle : (r.omitting w).settle = .ok (t.omitting w) := by
          rw [settle_omitting hexpects, ht]
          rfl
        rw [readAll_settled ht] at h
        rw [readAll_settled hsettle, omitFrom]
        obtain ⟨u, hstep, hu⟩ := readAll_cons_eq_convert.mp h
        by_cases hargument : argument = ['-', '-']
        · subst hargument
          rw [step_dashes htrail', Step.next.injEq] at hstep
          subst hstep
          have hfree : { t with trailing := true }.Expects w false := expects_of_waiting hwait
          have hrest := readAll_behindDashes hw hfree rfl hu
          rw [if_pos rfl]
          exact readAll_cons_eq_convert.mpr ⟨_, step_dashes htrail', hrest⟩
        · obtain ⟨hread, hexpects', htrail''⟩ :=
            step_omitArgument hw hwait htrail' hargument hstep
          rw [if_neg hargument]
          exact hread _ _ (ih hexpects' htrail'' hu)
    · obtain ⟨rfl, rfl⟩ := List.cons.inj heq
      rw [readAll_of_value hwait htrail hvalue] at h
      cases valued with
      | true =>
        -- the value goes with the switch
        obtain ⟨s', rfl, hwait'⟩ := hexpects
        cases hwait.symm.trans hwait'
        have hinput : s ≠ .input := by
          rintro rfl
          exact hw rfl
        obtain ⟨t, hnone, htrail', hsame, hrest⟩ := exists_filled hinput hwait h
        rw [omitFrom, ← hsame]
        exact ih (expects_of_waiting hnone) (htrail'.trans htrail) hrest
      | false =>
        have hs : .slot s ≠ w := hexpects s none hwait
        have hexpects' : { r with waiting := some (s, some argument) }.Expects w false := by
          rintro _ _ ⟨⟩
          exact hs
        have hrest := ih hexpects' htrail h
        have hwait' : (r.omitting w).waiting = some (s, none) :=
          (waiting_omitting hexpects).trans hwait
        have htrail' : (r.omitting w).trailing = false := htrail
        rw [omitFrom, if_neg (hvalue '-' []), omitArgument_value hvalue, List.singleton_append,
          readAll_of_value hwait' htrail' hvalue]
        simpa [omitting, hs, Option.filter] using hrest

end Reading

/-- Arguments that are accepted stay accepted without a switch, and nothing else changes. -/
theorem request_omitSwitch {w : Switch} (hw : w ≠ .slot .input) {arguments : List Text}
    {a : Arguments} (h : request arguments = .convert a) :
    request (omitSwitch w arguments) = .convert (a.omitting w) := by
  have hempty : Reading.omitting w {} = {} := by simp [Reading.omitting]
  have hexpects : Reading.Expects w false {} := Reading.expects_of_waiting rfl
  have hrest := Reading.readAll_omitFrom hw hexpects rfl h
  rw [hempty] at hrest
  exact hrest

end MarkdownExport.CommandLine

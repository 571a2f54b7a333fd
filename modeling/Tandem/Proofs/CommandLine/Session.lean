import Tandem.CommandLine.Session
import Tandem.Proofs.Sample.Countdown
import Tandem.Proofs.Sample.Fibonacci

/-!
# What sessions show

How a session ends and what it prints depend only on the program, its argument, the size of the
stack and the wish for counters (`CommandLine.session_determined`), with one exception. The dispatch
strategy, the growth of the stacks, the trace and the number of runs change nothing but the journal
and the message about time, unless that message needs a division that cannot be made: a session that
has run its image 4294967296 times, or a multiple of that, comes to nothing
(`CommandLine.repeating_dividesByZero`). Sessions always end: every program that users can ask for
halts on a stack that is large enough, and fails otherwise.
-/

namespace Tandem.CommandLine

open Engine

/-! ## Options that a command line can give -/

/-- Options for a program that users can ask for, and for a stack whose size has at most 64 bits. -/
structure Options.Sound (options : Options) : Prop where
  program : options.program ≠ .pushForever
  stackSize : ∀ size ∈ options.stackSize, size < UInt64.size

instance (options : Options) : Decidable options.Sound :=
  decidable_of_iff
    (options.program ≠ .pushForever ∧ ∀ size ∈ options.stackSize, size < UInt64.size)
    ⟨fun sound => ⟨sound.1, sound.2⟩, fun sound => ⟨sound.program, sound.stackSize⟩⟩

theorem Options.Sound.stackSize_lt {options : Options} (sound : options.Sound) :
    options.config.stackSize < UInt64.size := by
  show options.stackSize.getD ({} : Config).stackSize < _
  cases given : options.stackSize with
  | none => decide
  | some size => exact sound.stackSize size given

/-! ## Samples that end -/

/-- Whatever its argument is, a sample that users can ask for halts on some stack. -/
theorem sample_halts {sample : Sample} (asked : sample ≠ .pushForever) (argument : UInt32) :
    ∃ size value stats, 20 ≤ size ∧ size < UInt64.size ∧
      Sequential.Halts sample.image size (.entry sample.image argument) value stats := by
  cases sample with
  | fibonacci =>
    rcases Nat.lt_or_ge argument.toNat 0x80000000 with small | negative
    · have fits : 40 + 24 * (argument.toNat - 2) < UInt64.size := by
        rw [show UInt64.size = 2 ^ 64 from rfl]
        omega
      have halts := Fibonacci.halts_of_natural fits small (Nat.le_refl _)
      rw [UInt32.ofNat_toNat] at halts
      exact ⟨_, _, _, by omega, fits, halts⟩
    · exact ⟨40, _, _, by decide, by decide,
        Fibonacci.halts_of_negative negative (Nat.le_refl 40)⟩
  | countdown =>
    rcases Nat.lt_or_ge argument.toNat 0x80000000 with small | negative
    · have halts := @Countdown.halts_of_natural 20 _ small
      rw [UInt32.ofNat_toNat] at halts
      exact ⟨20, _, _, by decide, by decide, halts⟩
    · exact ⟨20, _, _, by decide, by decide, Countdown.halts_of_negative negative⟩
  | halt =>
    have exits : Instruction.decode Sample.halt.image 0 = .ok .exit := rfl
    exact ⟨20, _, _, by decide, by decide,
      .of_execute exits (Machine.execute_achieves (.pure _)) (fun _ => rfl) rfl⟩
  | pushForever => exact absurd rfl asked

/-! ## Runs of a session -/

variable {image : Image} {config : Config} {engine : Engine} {options : Options}

theorem tally_run (engine : Engine) (strategy : Strategy) (argument : Value) (fuel : Nat) :
    (engine.run strategy argument fuel).map (fun ended => (ended.1, ended.2.stats)) =
      (engine.report strategy argument fuel).map Report.tally := by
  rw [report, Option.map_map]
  rfl

/-- However often an image is run, the last run comes to what the first one comes to. -/
theorem tally_runAgain (history : History image config engine)
    (fits : Threaded.Fits image config.stackSize) (spares : image.SparesHeaders)
    (strategy : Strategy) (argument : Value) (fuel more : Nat) :
    (runAgain strategy argument fuel more engine).map (fun ended => (ended.1, ended.2.stats)) =
      (engine.report strategy argument fuel).map Report.tally := by
  induction more generalizing engine with
  | zero => exact tally_run engine strategy argument fuel
  | succ more ih =>
    have once := tally_run engine strategy argument fuel
    rw [runAgain]
    cases ran : engine.run strategy argument fuel with
    | none => rw [← once, ran]
    | some ended =>
      obtain ⟨result, after⟩ := ended
      cases result with
      | error fault => rw [← once, ran]
      | ok value =>
        have history' := History.run history ran
        exact (ih history').trans (tally_report history'.kept history.kept rfl fits spares strategy
          strategy argument fuel)

/-- A single run of a program that users can ask for ends. -/
theorem single_run_ends (sound : options.Sound)
    (sameSize : options.config.stackSize = config.stackSize) :
    ∃ fuel report,
      (ofImage options.program.image config).report .sequential (.ofUInt32 options.argument) fuel =
        some report := by
  obtain ⟨size, value, stats, enough, small, halts⟩ := sample_halts sound.program options.argument
  have fits := options.program.fits sound.stackSize_lt
  rw [sameSize] at fits
  exact report_ends (options.program.fits small) fits options.program.sparesHeaders enough halts
    (kept_ofImage _ config) .sequential

/-! ## The time of one run -/

theorem timePerRun_eq_none_iff {elapsed repeats : Nat} :
    timePerRun elapsed repeats = none ↔ UInt32.size ∣ repeats := by
  have zero : repeats.toUInt32 = 0 ↔ UInt32.size ∣ repeats := by
    rw [← UInt32.toNat_inj, UInt32.toNat_ofNat']
    exact Nat.dvd_iff_mod_eq_zero.symm
  rw [← zero]
  simp [timePerRun]

/-- A session with these options would divide by zero, if its runs succeed: there are several runs
to be timed, and their number is zero as a 32-bit word. -/
def Options.DividesByZero (options : Options) (informed : Bool) : Prop :=
  informed ∧ 1 < options.repeats ∧ UInt32.size ∣ options.repeats

instance (informed : Bool) : Decidable (options.DividesByZero informed) :=
  inferInstanceAs (Decidable (_ ∧ _ ∧ _))

/-! ## What a session shows -/

/-- How a session ends and what it prints. -/
def Session.shown (session : Session) : Ending × String := (session.ending, session.printed)

/-- What a session shows whose last run came to this. -/
def Options.showing (options : Options) (informed : Bool) (tally : Except Fault Value × Stats) :
    Ending × String :=
  if tally.1.isOk ∧ options.DividesByZero informed then (.dividedByZero, "")
  else
    (.returned (tally.1.map some),
      if options.stats ∧ tally.1.isOk then statsLine tally.2 else "")

section Showing

variable {informed : Bool} {value : Value}

theorem showing_of_error (fault : Fault) (stats : Stats) :
    options.showing informed (.error fault, stats) = (.returned (.error fault), "") := by
  have failed : ¬ (Except.error fault : Except Fault Value).isOk := Bool.false_ne_true
  rw [Options.showing, if_neg fun divides => failed divides.1, if_neg fun shows => failed shows.2]
  rfl

theorem showing_of_divides (divides : options.DividesByZero informed) (stats : Stats) :
    options.showing informed (.ok value, stats) = (.dividedByZero, "") :=
  if_pos ⟨rfl, divides⟩

theorem showing_of_not_divides (regular : ¬ options.DividesByZero informed) (stats : Stats) :
    options.showing informed (.ok value, stats) =
      (.returned (.ok (some value)), if options.stats then statsLine stats else "") := by
  rw [Options.showing, if_neg fun divides => regular divides.2]
  congr 1
  exact if_congr (and_iff_left rfl) rfl rfl

theorem shown_conclude (options : Options) (informed : Bool) (elapsed : Nat)
    (result : Except Fault Value) (engine : Engine) :
    ((Work.ran result engine).conclude options informed elapsed).shown =
      options.showing informed (result, engine.stats) := by
  cases result with
  | error fault => exact (showing_of_error fault _).symm
  | ok value =>
    dsimp only [Work.conclude]
    split
    case isTrue timed =>
      split
      case h_1 perRun share =>
        have regular : ¬ options.DividesByZero informed := by
          rintro ⟨-, -, multiple⟩
          rw [timePerRun_eq_none_iff.mpr multiple] at share
          cases share
        exact (showing_of_not_divides regular _).symm
      case h_2 share =>
        have divides : options.DividesByZero informed :=
          ⟨timed.1, timed.2, timePerRun_eq_none_iff.mp share⟩
        exact (showing_of_divides divides _).symm
    case isFalse untimed =>
      have regular : ¬ options.DividesByZero informed := fun divides =>
        untimed ⟨divides.1, divides.2.1⟩
      exact (showing_of_not_divides regular _).symm

end Showing

/-- A session shows what a single sequential run on any engine with a stack of the same size comes
to. -/
theorem shown_session (sound : options.Sound) (runs : options.disassemble = false) {config : Config}
    (sameSize : options.config.stackSize = config.stackSize) (informed : Bool) (elapsed fuel : Nat) :
    (session options informed elapsed fuel).map Session.shown =
      (((ofImage options.program.image config).report .sequential (.ofUInt32 options.argument)
        fuel).map Report.tally).map (options.showing informed) := by
  have fits := options.program.fits sound.stackSize_lt
  have spares := options.program.sparesHeaders
  have tally := (tally_runAgain .fresh fits spares options.strategy (.ofUInt32 options.argument) fuel
    (options.repeats - 1)).trans
    (tally_report (kept_ofImage _ _) (kept_ofImage _ config) sameSize fits spares options.strategy
      .sequential _ fuel)
  rw [← tally, session, work, options.program.load_bytes]
  dsimp only
  rw [if_neg (by simp [runs]), Option.map_map, Option.map_map, Option.map_map]
  congr 1
  funext ended
  exact shown_conclude options informed elapsed ended.1 ended.2

/-- What a command line makes the program do depends, apart from the journal and the message about
time, only on the program, its argument, the size of the stack and whether the counters are printed.
With any strategy, growth and trace and however often it is repeated, the session ends. It shows what
a single sequential run on a fresh engine comes to, unless that run succeeds and the options divide
by zero: then it returns and prints nothing. -/
theorem session_determined (sound : options.Sound) (runs : options.disassemble = false) :
    let engine := ofImage options.program.image { stackSize := options.config.stackSize }
    ∃ fuel report,
      engine.report .sequential (.ofUInt32 options.argument) fuel = some report ∧
        ∀ threaded growth trace repeats informed elapsed,
          let way := { options with threaded, growth, trace, repeats }
          (∃ fuel ended, session way informed elapsed fuel = some ended) ∧
            ∀ fuel ended, session way informed elapsed fuel = some ended →
              if report.result.isOk ∧ way.DividesByZero informed then
                ended.ending = .dividedByZero ∧ ended.printed = ""
              else
                ended.ending = .returned (report.result.map some) ∧
                  ended.printed =
                    if options.stats ∧ report.result.isOk then statsLine report.stats else "" := by
  intro engine
  let config : Config := { stackSize := options.config.stackSize }
  have sameSize : options.config.stackSize = config.stackSize := rfl
  have kept : Kept options.program.image config engine := kept_ofImage ..
  obtain ⟨fuel, report, ended⟩ :
      ∃ fuel report, engine.report .sequential (.ofUInt32 options.argument) fuel = some report :=
    single_run_ends sound sameSize
  refine ⟨fuel, report, ended, ?_⟩
  intro threaded growth trace repeats informed elapsed way
  have sound' : way.Sound := ⟨sound.program, sound.stackSize⟩
  have shown (fuel : Nat) : (session way informed elapsed fuel).map Session.shown =
      ((engine.report .sequential (.ofUInt32 options.argument) fuel).map Report.tally).map
        (way.showing informed) :=
    shown_session sound' runs sameSize informed elapsed fuel
  constructor
  · have same := shown fuel
    rw [ended, Option.map_some, Option.map_some] at same
    obtain ⟨session, ended, -⟩ := Option.map_eq_some_iff.mp same
    exact ⟨fuel, session, ended⟩
  · intro fuel' session' ended'
    have same := shown fuel'
    rw [ended', Option.map_some, Option.map_map] at same
    obtain ⟨report', ended', told⟩ := Option.map_eq_some_iff.mp same.symm
    have sameTally := tally_unique kept (options.program.fits sound.stackSize_lt)
      options.program.sparesHeaders ended' ended
    rw [Function.comp_apply, sameTally] at told
    split
    case isTrue divides =>
      have told := told.symm.trans (if_pos divides)
      exact ⟨congrArg Prod.fst told, congrArg Prod.snd told⟩
    case isFalse regular =>
      have told := told.symm.trans (if_neg regular)
      exact ⟨congrArg Prod.fst told, congrArg Prod.snd told⟩

/-- Sessions of a run that has just enough room for its calls. -/
theorem session_determined_small :
    let options : Options := { argument := 3, stackSize := some 64, stats := true }
    options.Sound ∧
      let engine := ofImage options.program.image { stackSize := options.config.stackSize }
      ∃ fuel report,
        engine.report .sequential (.ofUInt32 options.argument) fuel = some report ∧
          ∀ threaded growth trace repeats informed elapsed,
            let way := { options with threaded, growth, trace, repeats }
            (∃ fuel ended, session way informed elapsed fuel = some ended) ∧
              ∀ fuel ended, session way informed elapsed fuel = some ended →
                if report.result.isOk ∧ way.DividesByZero informed then
                  ended.ending = .dividedByZero ∧ ended.printed = ""
                else
                  ended.ending = .returned (report.result.map some) ∧
                    ended.printed =
                      if options.stats ∧ report.result.isOk then statsLine report.stats else "" := by
  intro options
  have sound : options.Sound := by decide
  exact ⟨sound, session_determined sound rfl⟩

/-- The lone exit, run once and run so often that the number of runs is zero as a 32-bit word: the
one session returns a value, the other divides by zero. -/
theorem repeating_dividesByZero :
    let once : Options := { program := .halt, stackSize := some 20 }
    let often := { once with repeats := UInt32.size }
    ∀ elapsed,
      (session once true elapsed 2).map Session.shown =
          some (.returned (.ok (some (.ofUInt32 0))), "") ∧
        (session often true elapsed 2).map Session.shown = some (.dividedByZero, "") := by
  intro once often elapsed
  have halts : ((ofImage Sample.halt.image { stackSize := 20 }).report .sequential (.ofUInt32 20)
      2).map Report.tally = some (.ok (.ofUInt32 0), { instructions := 1, maxDepth := 20 }) := rfl
  constructor
  · have regular : ¬ once.DividesByZero true := by decide
    have shown := @shown_session once (by decide) rfl { stackSize := 20 } rfl true elapsed 2
    exact shown.trans ((congrArg _ halts).trans (congrArg some (showing_of_not_divides regular _)))
  · have divides : often.DividesByZero true := by decide
    have shown := @shown_session often (by decide) rfl { stackSize := 20 } rfl true elapsed 2
    exact shown.trans ((congrArg _ halts).trans (congrArg some (showing_of_divides divides _)))

end Tandem.CommandLine

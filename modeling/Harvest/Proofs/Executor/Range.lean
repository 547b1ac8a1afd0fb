import Harvest.Proofs.Executor.Visits
import Harvest.Proofs.Text.Literals

/-! Page ranges in writing. Two texts are a range exactly when they spell two numbers of 64 bits
that are in order and not too far apart. Over such a range a machine of 64 bits counts as if it
had all integers, and with any other two texts no page is visited.
-/

namespace Harvest

open TaskM

namespace PageRange

-----------------------------------------------------------------------------------------
-- Two texts as a range
-----------------------------------------------------------------------------------------

/-- Two texts spell two numbers of 64 bits, in order and at most fifty apart. -/
structure Written (first last : String) (a b : Int64) : Prop where
  first : Text.Spells first a.toInt
  last : Text.Spells last b.toInt
  ordered : a.toInt ≤ b.toInt
  near : b.toInt - a.toInt ≤ 50

/-- A page number is what 64 bits hold. -/
theorem isNumber_iff {n : Int} : isNumber n ↔ ∃ a : Int64, a.toInt = n := by
  simp only [isNumber, Bool.and_eq_true, decide_eq_true_eq]
  constructor
  · rintro ⟨low, high⟩
    exact ⟨Int64.ofInt n, Int64.toInt_ofInt_of_le (by omega) (by omega)⟩
  · rintro ⟨a, rfl⟩
    have low := a.le_toInt
    have high := a.toInt_lt
    omega

/-- A page number is read from a text that spells it. -/
theorem number?_eq_some_iff {text : String} {n : Int}
    : number? text = some n ↔ Text.Spells text n ∧ ∃ a : Int64, a.toInt = n := by
  rw [number?, Option.filter_eq_some_iff, Text.integer?_trim_eq_some_iff, isNumber_iff]

/-- Two texts are a range when they are written as one, by cases on the three checks. -/
theorem parse_eq_ok_iff {first last : String} {range : PageRange}
    : parse first last = .ok range
      ↔ ∃ a b, Written first last a b ∧ range = ⟨a.toInt, b.toInt⟩ := by
  constructor
  · intro parsed
    unfold parse at parsed
    split at parsed
    case h_2 => cases parsed
    case h_1 start finish firstNumber lastNumber =>
      obtain ⟨spelled, a, rfl⟩ := number?_eq_some_iff.mp firstNumber
      obtain ⟨spelled', b, rfl⟩ := number?_eq_some_iff.mp lastNumber
      split at parsed
      · cases parsed
      · rename_i ordered
        split at parsed
        · cases parsed
        · rename_i near
          cases parsed
          exact ⟨a, b, ⟨spelled, spelled', by omega, by simpa [widest] using near⟩, rfl⟩
  · rintro ⟨a, b, written, rfl⟩
    have start := number?_eq_some_iff.mpr ⟨written.first, a, rfl⟩
    have finish := number?_eq_some_iff.mpr ⟨written.last, b, rfl⟩
    have ordered : ¬ b.toInt < a.toInt := Int.not_lt.mpr written.ordered
    have near : ¬ widest < b.toInt - a.toInt := Int.not_lt.mpr written.near
    unfold parse
    simp only [start, finish, if_neg ordered, if_neg near]
    rfl

-----------------------------------------------------------------------------------------
-- The numbers of a range
-----------------------------------------------------------------------------------------

/-- The numbers of a range begin with the first one. -/
theorem numbers_cons {a b : Int} (ordered : a ≤ b)
    : numbers ⟨a, b⟩ = a :: numbers ⟨a + 1, b⟩ := by
  have sizes : size ⟨a, b⟩ = size ⟨a + 1, b⟩ + 1 := by
    simp only [size]
    omega
  rw [numbers, sizes, List.range_succ_eq_map, List.map_cons, List.map_map, numbers]
  refine congrArg₂ List.cons (Int.add_zero a) (List.map_congr_left fun i _ => ?_)
  simp only [Function.comp_apply, Nat.succ_eq_add_one, Nat.cast_add, Nat.cast_one]
  omega

theorem numbers_of_lt {a b : Int} (above : b < a) : numbers ⟨a, b⟩ = [] := by
  have sizes : size ⟨a, b⟩ = 0 := by
    simp only [size]
    omega
  rw [numbers, sizes]
  rfl

/-- A page range holds a page. -/
theorem numbers_ne_nil {first last : String} {range : PageRange}
    (parsed : parse first last = .ok range)
    : range.numbers ≠ [] := by
  obtain ⟨a, b, written, rfl⟩ := parse_eq_ok_iff.mp parsed
  rw [numbers_cons written.ordered]
  exact List.cons_ne_nil _ _

/-- The page numbers of a range are numbers of 64 bits, and there are few of them. -/
theorem numbers_of_parse {first last : String} {range : PageRange}
    (parsed : parse first last = .ok range)
    : range.numbers.length ≤ 51 ∧ ∀ n ∈ range.numbers, isNumber n := by
  obtain ⟨a, b, written, rfl⟩ := parse_eq_ok_iff.mp parsed
  have near := written.near
  have low := a.le_toInt
  have high := b.toInt_lt
  simp only [isNumber, numbers, size, Bool.and_eq_true, decide_eq_true_eq, List.length_map,
    List.length_range, List.mem_map, List.mem_range]
  constructor
  · omega
  · rintro n ⟨i, small, rfl⟩
    omega

-----------------------------------------------------------------------------------------
-- Counting with 64 bits
-----------------------------------------------------------------------------------------

/-- A walk from one number of 64 bits to another, both ends included: one more is added only below
the end.
-/
inductive Climbs : Int64 → Int64 → List Int64 → Prop where
  | past {a b : Int64} (above : b < a) : Climbs a b []
  | last {a : Int64} : Climbs a a [a]
  | next {a b : Int64} {steps : List Int64} (below : a < b) (rest : Climbs (a + 1) b steps)
      : Climbs a b (a :: steps)

/-- Below another number one more is added without overflow. -/
theorem toInt_succ {a b : Int64} (below : a < b) : (a + 1).toInt = a.toInt + 1 := by
  rw [Int64.lt_iff_toInt_lt] at below
  have low := a.le_toInt
  have high := b.toInt_lt
  rw [Int64.toInt_add, Int64.toInt_one]
  exact Int.bmod_eq_of_le (by omega) (by omega)

/-- A walk passes the numbers of the range, by induction over the walk. -/
theorem Climbs.numbers {a b : Int64} {steps : List Int64} (climbs : Climbs a b steps)
    : steps.map Int64.toInt = numbers ⟨a.toInt, b.toInt⟩ := by
  induction climbs with
  | past above => exact (numbers_of_lt (Int64.lt_iff_toInt_lt.mp above)).symm
  | last =>
      rw [numbers_cons (Int.le_refl _), numbers_of_lt (by omega)]
      rfl
  | next below _ ih =>
      rw [List.map_cons, ih, toInt_succ below,
        numbers_cons (Int.le_of_lt (Int64.lt_iff_toInt_lt.mp below))]

/-- There is a walk between any two numbers, by induction over how far they are apart. -/
theorem exists_climbs (a b : Int64) : ∃ steps, Climbs a b steps := by
  induction far : (b.toInt - a.toInt).toNat generalizing a with
  | zero =>
      rcases Int.lt_trichotomy a.toInt b.toInt with below | same | above
      · omega
      · obtain rfl := Int64.toInt_inj.mp same
        exact ⟨_, .last⟩
      · exact ⟨_, .past (Int64.lt_iff_toInt_lt.mpr above)⟩
  | succ distance ih =>
      have below : a < b := Int64.lt_iff_toInt_lt.mpr (by omega)
      obtain ⟨steps, climbs⟩ := ih (a + 1) (by rw [toInt_succ below]; omega)
      exact ⟨_, .next below climbs⟩

/-- How far the ends of a range are apart, and one more, are numbers of 64 bits. -/
theorem Written.counted {first last : String} {a b : Int64} (written : Written first last a b)
    : (b - a).toInt = b.toInt - a.toInt ∧ (b - a + 1).toInt = b.toInt - a.toInt + 1 := by
  have ordered := written.ordered
  have near := written.near
  have span : (b - a).toInt = b.toInt - a.toInt := by
    rw [Int64.toInt_sub]
    exact Int.bmod_eq_of_le (by omega) (by omega)
  refine ⟨span, ?_⟩
  rw [Int64.toInt_add, span, Int64.toInt_one]
  exact Int.bmod_eq_of_le (by omega) (by omega)

-----------------------------------------------------------------------------------------
-- Refusals
-----------------------------------------------------------------------------------------

/-- Texts that are not written as a range are none, for some reason. -/
theorem exists_reason {first last : String} (unwritten : ¬ ∃ a b, Written first last a b)
    : ∃ reason, parse first last = .error reason := by
  cases parsed : parse first last with
  | error reason => exact ⟨reason, rfl⟩
  | ok range =>
      obtain ⟨a, b, written, _⟩ := parse_eq_ok_iff.mp parsed
      exact absurd ⟨a, b, written⟩ unwritten

end PageRange

namespace Executor

/-- A text on an input is the one that was put there. -/
theorem inputText?_eq {work : Workspace} {name text read : String}
    (here : work.input? name = some (.text text)) (some : work.inputText? name = some read)
    : read = text := by
  rw [Workspace.inputText?, here] at some
  exact (Option.some.inj (Option.filter_eq_some_iff.mp some).1).symm

/-- Nothing is asked of a pagination whose texts are not written as a range. -/
theorem not_of_unwritten {settings : TaskSettings} {work : Workspace} {first last : String}
    (unwritten : ¬ ∃ a b, PageRange.Written first last a b)
    (start : work.input? Slot.startPage = some (.text first))
    (finish : work.input? Slot.endPage = some (.text last)) (order : PageOrder)
    : ¬ order.Of settings work := by
  intro of
  obtain ⟨_, _, first', last', parsed⟩ := of.range
  obtain rfl := inputText?_eq start first'
  obtain rfl := inputText?_eq finish last'
  obtain ⟨a, b, written, _⟩ := PageRange.parse_eq_ok_iff.mp parsed
  exact unwritten ⟨a, b, written⟩

end Executor

/-- Two texts are a range exactly when they spell two numbers of 64 bits in order and at most fifty
apart. The distance and the total of such a range are computed with 64 bits as over the integers,
and a walk with 64 bits passes its numbers. Other texts are refused for a reason, and a pagination
that is given them asks for the time of a log entry and for nothing else.
-/
theorem ranges_exact (first last : String)
    : (∀ range,
        PageRange.parse first last = .ok range
          ↔ ∃ a b, PageRange.Written first last a b ∧ range = ⟨a.toInt, b.toInt⟩)
      ∧ (∀ a b,
          PageRange.Written first last a b
          → (b - a).toInt = b.toInt - a.toInt
            ∧ (b - a + 1).toInt = b.toInt - a.toInt + 1
            ∧ ((PageRange.mk a.toInt b.toInt).size : Int) = (b - a + 1).toInt
            ∧ ∃ steps,
                PageRange.Climbs a b steps
                ∧ steps.map Int64.toInt = (PageRange.mk a.toInt b.toInt).numbers)
      ∧ ((¬ ∃ a b, PageRange.Written first last a b)
        → (∃ reason, PageRange.parse first last = .error reason)
          ∧ ∀ (settings : TaskSettings) (work : Workspace),
              work.input? Slot.startPage = some (.text first)
              → work.input? Slot.endPage = some (.text last)
              → (Executor.pagination settings).Always work fun calls result left =>
                  ∃ message, ∃ time : Time.Instant,
                    calls = [⟨.now, time⟩]
                    ∧ result = .ok false
                    ∧ left = work.record .error message time) := by
  refine ⟨fun range => PageRange.parse_eq_ok_iff, fun a b written => ?_, fun unwritten => ?_⟩
  · obtain ⟨span, total⟩ := written.counted
    obtain ⟨steps, climbs⟩ := PageRange.exists_climbs a b
    refine ⟨span, total, ?_, steps, climbs, climbs.numbers⟩
    have ordered := written.ordered
    have positive : 0 ≤ b.toInt - a.toInt + 1 := by omega
    rw [total]
    exact Int.toNat_of_nonneg positive
  · refine ⟨PageRange.exists_reason unwritten, fun settings work start finish => ?_⟩
    refine Executor.always_pagination_of
      (fun _ message time => ⟨message, time, rfl, rfl, rfl⟩) fun order of => ?_
    exact absurd of (Executor.not_of_unwritten unwritten start finish order)

/-- The last two numbers of 64 bits are a range that is walked to its end, and all of them are not.
-/
theorem ranges_exact_limits
    : (∃ a b steps,
        PageRange.Written " 9223372036854775806" "+09223372036854775807\n" a b
        ∧ PageRange.Climbs a b steps
        ∧ steps.map Int64.toInt = [9223372036854775806, 9223372036854775807])
      ∧ ∀ work : Workspace,
          work.input? Slot.startPage = some (.text "-9223372036854775808")
          → work.input? Slot.endPage = some (.text "9223372036854775807")
          → (Executor.pagination .usual).Always work fun calls result _ =>
              ∃ time : Time.Instant, calls = [⟨.now, time⟩] ∧ result = .ok false := by
  constructor
  · have exact := ranges_exact " 9223372036854775806" "+09223372036854775807\n"
    obtain ⟨a, b, written, range⟩ :=
      (exact.1 ⟨9223372036854775806, 9223372036854775807⟩).mp (by decide +kernel)
    obtain ⟨_, _, _, steps, climbs, passed⟩ := exact.2.1 a b written
    refine ⟨a, b, steps, written, climbs, ?_⟩
    rw [passed, ← range]
    decide
  · intro work start finish
    have exact := ranges_exact "-9223372036854775808" "9223372036854775807"
    have unwritten
        : ¬ ∃ a b, PageRange.Written "-9223372036854775808" "9223372036854775807" a b := by
      rintro ⟨a, b, written⟩
      have parsed := (exact.1 _).mpr ⟨a, b, written, rfl⟩
      have refused : PageRange.parse "-9223372036854775808" "9223372036854775807"
          = .error .tooLarge := by
        decide +kernel
      rw [refused] at parsed
      cases parsed
    refine ((exact.2.2 unwritten).2 .usual work start finish).mono ?_
    rintro calls result left ⟨_, time, asked, refused, _⟩
    exact ⟨time, asked, refused⟩

end Harvest

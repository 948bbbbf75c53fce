import Accumulator.Proofs.Lines
import Accumulator.Proofs.Tally
import Accumulator.Statistics.Report

/-!
# What the report tells

The statistics of a list of records are the sizes of its classes, so the order of the records does
not show in them (`recordAll_perm`). The report puts them on twenty lines (`isLines_report`), each
number at the same place of a line of its own; `numberOn` reads it back (`map_numberOn_mix`), the
percentage behind it or not. So nothing is lost: the report of two statistics is the same only if
they are (`report_inj`), and the numbers of the instruction mix add up to the number of steps
(`report_law`).
-/

namespace Accumulator.Statistics

variable {s s' : Statistics} {records records' : List (Instruction × Bool)} {name value : String}
  {n : Nat}

/-! ## Records -/

/-- Statistics are the number of steps and the counters of the classes. -/
theorem ext_count (steps : s.steps = s'.steps) (classes : ∀ c, s.count c = s'.count c) :
    s = s' := by
  cases s
  cases s'
  rw [mk.injEq]
  exact ⟨steps, classes .load, classes .store, classes .arithmetic, classes .comparison,
    classes .bitwise, classes .update, classes .branchTaken, classes .branchNotTaken, classes .jump,
    classes .halt, classes .noop⟩

/-- Every record is a step. -/
theorem steps_recordAll (s : Statistics) (records : List (Instruction × Bool)) :
    (s.recordAll records).steps = s.steps + .ofNat records.length := by
  induction records generalizing s with
  | nil => simp [recordAll]
  | cons r rest ih =>
    change ((s.record r.1 r.2).recordAll rest).steps = _
    rw [ih, steps_record, List.length_cons, Nat.add_comm, UInt64.ofNat_add, UInt64.add_assoc]
    rfl

/-- Records keep every step in one class, as long as the step counter has room. -/
theorem Balanced.recordAll (h : s.Balanced) (room : s.steps.toNat + records.length < 2 ^ 64) :
    (s.recordAll records).Balanced := by
  induction records generalizing s with
  | nil => exact h
  | cons r rest ih =>
    rw [List.length_cons] at room
    have steps : (s.record r.1 r.2).steps.toNat = s.steps.toNat + 1 := by
      rw [steps_record, toNat_succ (by omega)]
    exact ih (s := s.record r.1 r.2) (h.record (by omega) r.1 r.2) (by omega)

/-- **The order of the records does not count.** -/
theorem recordAll_perm (h : records.Perm records') (s : Statistics) :
    s.recordAll records = s.recordAll records' := by
  refine ext_count ?_ fun c => ?_
  · rw [steps_recordAll, steps_recordAll, h.length_eq]
  · rw [count_recordAll, count_recordAll, h.countP_eq]

/-- Whether control was transferred makes a difference to conditional branches only. -/
theorem record_congr {i : Instruction} (breq : ∀ t, i ≠ .breq t) (brne : ∀ t, i ≠ .brne t)
    (s : Statistics) (taken taken' : Bool) : s.record i taken = s.record i taken' := by
  cases i with
  | breq t => exact absurd rfl (breq t)
  | brne t => exact absurd rfl (brne t)
  | halt | load _ | store _ | add _ | sub _ | cmp _ | jump _ | bitwise _ _ | bit _ | zero _ | inc _
  | dec _ | noop _ => rfl

/-! ## Lines -/

/-- The characters of a row: the name, blanks up to the column, one blank more and the value. -/
theorem toList_row (name value : String) : (row name value).toList =
    name.toList ++ List.replicate (24 - name.length) ' ' ++ ' ' :: value.toList := by
  rw [row, String.toList_append, String.toList_append, String.toList_append, String.toList_ofList,
    List.append_assoc]
  rfl

theorem toList_toString (n : Nat) : (toString n).toList = Nat.toDigits 10 n := by
  rw [Nat.toString_eq_repr, Nat.toList_repr]

theorem feed_not_mem_toDigits (n : Nat) : '\n' ∉ Nat.toDigits 10 n := fun feed =>
  absurd (Nat.isDigit_of_mem_toDigits (by decide) (by decide) feed) (by decide)

/-- A row is one line if its name and its value are. -/
theorem feed_not_mem_row (hname : '\n' ∉ name.toList) (hvalue : '\n' ∉ value.toList) :
    '\n' ∉ (row name value).toList := by
  have padding : '\n' ∉ List.replicate (24 - name.length) ' ' := fun feed =>
    absurd (List.eq_of_mem_replicate feed) (by decide)
  rw [toList_row, List.mem_append, List.mem_append, List.mem_cons]
  rintro ((feed | feed) | feed | feed)
  · exact hname feed
  · exact padding feed
  · cases feed
  · exact hvalue feed

/-- A share is the digits of the count, and behind a blank the percentage. -/
theorem exists_toList_share (s : Statistics) (count : UInt64) : ∃ rest,
    (s.share count).toList = Nat.toDigits 10 count.toNat ++ ' ' :: rest ∧ '\n' ∉ rest := by
  refine ⟨'(' :: ((Fixed.text (percentage count s.steps)).toList ++ ['%', ')']), ?_, ?_⟩
  · have opening : " (".toList = [' ', '('] := rfl
    have closing : "%)".toList = ['%', ')'] := rfl
    rw [share, String.toList_append, String.toList_append, String.toList_append, toList_toString,
      opening, closing, List.append_assoc, List.append_assoc]
    rfl
  · have point : ".".toList = ['.'] := rfl
    simp only [Fixed.text, Fixed.ofHundredths, String.toList_append, toList_toString, point,
      List.mem_cons, List.mem_append, feed_not_mem_toDigits, Char.reduceEq, List.not_mem_nil,
      or_false, not_false_eq_true]

/-- A share stands on one line. -/
theorem feed_not_mem_share (s : Statistics) (count : UInt64) : '\n' ∉ (s.share count).toList := by
  obtain ⟨rest, text, unbroken⟩ := exists_toList_share s count
  rw [text, List.mem_append, List.mem_cons]
  rintro (feed | feed | feed)
  · exact feed_not_mem_toDigits _ feed
  · cases feed
  · exact unbroken feed

/-- The report is its lines, each with its line feed. -/
theorem isLines_report (s : Statistics) :
    IsLines (s.reportLines.map String.toList) s.report := by
  refine isLines_join ?_
  have count (n : Nat) : '\n' ∉ (toString n).toList := toList_toString n ▸ feed_not_mem_toDigits n
  have names : ∀ p ∈ s.mix, '\n' ∉ p.1.toList := by simp [mix]
  simp only [reportLines, List.forall_mem_append, List.forall_mem_cons, List.forall_mem_map]
  refine ⟨⟨⟨by decide, by decide, by decide, ?_, by decide, by decide, nofun⟩, fun p hp => ?_⟩,
    by decide, by decide, ?_, ?_, nofun⟩
  · exact feed_not_mem_row (by decide) (count _)
  · exact feed_not_mem_row (names p hp) (feed_not_mem_share s _)
  · exact feed_not_mem_row (by decide) (count _)
  · exact feed_not_mem_row (by decide) (count _)

/-- What each line of a report starts with. -/
def headings : List String :=
  [ "==========================================", "EXECUTION STATISTICS",
    "==========================================", "steps",
    "------------------------------------------", "INSTRUCTION MIX",
    "  op.load", "  op.store", "  op.alu", "  op.compare", "  op.logic", "  op.rmw", "  op.branch",
    "  op.jump", "  op.halt", "  op.noop",
    "------------------------------------------", "BRANCHES",
    "  branch.taken", "  branch.not_taken" ]

/-- A row starts with its name. -/
theorem prefix_row (name value : String) : name.toList <+: (row name value).toList := by
  rw [toList_row, List.append_assoc]
  exact List.prefix_append _ _

/-- The lines of a report are twenty, each with its heading. -/
theorem forall₂_headings (s : Statistics) :
    List.Forall₂ (fun heading line => heading.toList <+: line) headings
      (s.reportLines.map String.toList) := by
  simp only [headings, reportLines, mix, List.map_cons, List.map_nil, List.cons_append,
    List.nil_append, List.forall₂_cons, prefix_row, List.prefix_rfl, true_and,
    List.forall₂_nil_left_iff]

/-! ## Numbers read back -/

/-- The number that a line shows behind its name: the digits from column 25 on, up to the first
character that is none. -/
def numberIn (line : List Char) : Nat :=
  Nat.ofDigitChars 10 ((line.drop 25).takeWhile Char.isDigit) 0

/-- The number on a line of a text, lines counted from zero. -/
def numberOn (line : Nat) (text : String) : Nat :=
  numberIn ((text.toList.splitOn '\n').getD line [])

/-- The number of a row is read back, if what follows it does not start with a digit. -/
theorem numberIn_row {rest : List Char} (short : name.length ≤ 24)
    (digits : value.toList = Nat.toDigits 10 n ++ rest)
    (ends : ∀ c ∈ rest.head?, c.isDigit = false) :
    numberIn (row name value).toList = n := by
  have columns : (name.toList ++ List.replicate (24 - name.length) ' ').length = 24 := by
    rw [List.length_append, List.length_replicate, String.length_toList]
    omega
  have behind : (row name value).toList.drop 25 = value.toList := by
    rw [toList_row, List.drop_append, columns, List.drop_of_length_le (by omega)]
    rfl
  have stop : rest.takeWhile Char.isDigit = [] := by
    cases rest with
    | nil => rfl
    | cons c rest => rw [List.takeWhile_cons_of_neg (by rw [ends c rfl]; decide)]
  have all : ∀ c ∈ Nat.toDigits 10 n, c.isDigit = true := fun c hc =>
    Nat.isDigit_of_mem_toDigits (by decide) (by decide) hc
  rw [numberIn, behind, digits, List.takeWhile_append_of_pos all, stop, List.append_nil,
    Nat.ofDigitChars_toDigits (by decide) (by decide)]

/-- A number shown in a row is read back. -/
theorem numberIn_row_toString (short : name.length ≤ 24) (n : Nat) :
    numberIn (row name (toString n)).toList = n := by
  have digits : (toString n).toList = Nat.toDigits 10 n ++ [] := by
    rw [toList_toString, List.append_nil]
  exact numberIn_row short digits nofun

/-- The count of a share is read back, without its percentage. -/
theorem numberIn_row_share (short : name.length ≤ 24) (s : Statistics) (count : UInt64) :
    numberIn (row name (s.share count)).toList = count.toNat := by
  obtain ⟨rest, text, -⟩ := exists_toList_share s count
  refine numberIn_row short text ?_
  rintro c ⟨⟩
  rfl

/-- Reading a line of the report is reading that one of its lines. -/
theorem numberOn_report (s : Statistics) (line : Nat) :
    numberOn line s.report = numberIn ((s.reportLines.map String.toList ++ [[]]).getD line []) := by
  rw [numberOn, (isLines_report s).splitOn_eq]

/-- The steps are on the fourth line. -/
theorem numberOn_steps (s : Statistics) : numberOn 3 s.report = s.steps.toNat := by
  rw [numberOn_report]
  exact numberIn_row_toString (by decide) _

theorem numberOn_taken (s : Statistics) : numberOn 18 s.report = s.branchesTaken.toNat := by
  rw [numberOn_report]
  exact numberIn_row_toString (by decide) _

theorem numberOn_notTaken (s : Statistics) : numberOn 19 s.report = s.branchesNotTaken.toNat := by
  rw [numberOn_report]
  exact numberIn_row_toString (by decide) _

/-- The numbers of the instruction mix are its counts. -/
theorem map_numberOn_mix (s : Statistics) :
    (List.range' 6 10).map (numberOn · s.report) = s.mix.map fun p => p.2.toNat := by
  have rows : (List.range' 6 10).map (numberOn · s.report) =
      s.mix.map fun p => numberIn (row p.1 (s.share p.2)).toList := by
    simp only [numberOn_report]
    rfl
  have short : ∀ p ∈ s.mix, p.1.length ≤ 24 := by simp +decide [mix]
  rw [rows]
  exact List.map_congr_left fun p hp => numberIn_row_share (short p hp) s p.2

/-- **The report determines the statistics.** -/
theorem report_inj (h : s.report = s'.report) : s = s' := by
  have mix : (s.mix.map fun p => p.2.toNat) = s'.mix.map fun p => p.2.toNat := by
    rw [← map_numberOn_mix, ← map_numberOn_mix, h]
  have steps : s.steps.toNat = s'.steps.toNat := by rw [← numberOn_steps, ← numberOn_steps, h]
  have taken : s.branchesTaken.toNat = s'.branchesTaken.toNat := by
    rw [← numberOn_taken, ← numberOn_taken, h]
  have notTaken : s.branchesNotTaken.toNat = s'.branchesNotTaken.toNat := by
    rw [← numberOn_notTaken, ← numberOn_notTaken, h]
  simp only [Statistics.mix, List.map_cons, List.map_nil, List.cons.injEq, UInt64.toNat_inj,
    and_true] at mix steps taken notTaken
  obtain ⟨load, store, arithmetic, comparison, bitwise, update, -, jump, halt, noop⟩ := mix
  -- the row of the branches shows a sum, but its parts have rows of their own
  refine ext_count steps fun c => ?_
  cases c with
  | load => exact load
  | store => exact store
  | arithmetic => exact arithmetic
  | comparison => exact comparison
  | bitwise => exact bitwise
  | update => exact update
  | branchTaken => exact taken
  | branchNotTaken => exact notTaken
  | jump => exact jump
  | halt => exact halt
  | noop => exact noop

/-- The counts of the mix add up to the steps, if every step is in one class. -/
theorem sum_mix (h : s.Balanced) : (s.mix.map fun p => p.2.toNat).sum = s.steps.toNat := by
  have branches : s.branches.toNat = s.branchesTaken.toNat + s.branchesNotTaken.toNat := by
    rw [Statistics.branches, UInt64.toNat_add]
    exact Nat.mod_eq_of_lt h.branches_lt
  rw [h, classes]
  simp only [mix, List.map_cons, List.map_nil, List.sum_cons, List.sum_nil, branches]
  omega

/-- **The report loses nothing and does not depend on order.** Statistics of records, fewer than
`2 ^ 64`, count them all as steps and in each class those that belong to it; whether control was
transferred tells the class of conditional branches only. Records in another order have the same
statistics and the same report, and the numbers on the ten lines of the instruction mix add up to
the number on the line of the steps. Every report is twenty lines, each with its heading, and no two
statistics have the same one. -/
theorem report_law :
    (∀ records : List (Instruction × Bool), records.length < 2 ^ 64 →
      let s := ({} : Statistics).recordAll records
      s.steps.toNat = records.length ∧
      (∀ c, (s.count c).toNat = records.countP fun (i, taken) => i.classBy taken = c) ∧
      (∀ records', records.Perm records' →
        ({} : Statistics).recordAll records' = s ∧
        (({} : Statistics).recordAll records').report = s.report) ∧
      ((List.range' 6 10).map (numberOn · s.report)).sum = numberOn 3 s.report) ∧
    (∀ (s : Statistics) (i : Instruction) (taken taken' : Bool), (∀ t, i ≠ .breq t) →
      (∀ t, i ≠ .brne t) → s.record i taken = s.record i taken') ∧
    (∀ s : Statistics, ∃ rows, (∀ lines, IsLines lines s.report ↔ lines = rows) ∧
      rows.length = 20 ∧
      List.Forall₂ (fun heading line => heading.toList <+: line) headings rows) ∧
    ∀ s s' : Statistics, s.report = s'.report → s = s' := by
  have start : ({} : Statistics).steps.toNat = 0 := rfl
  refine ⟨fun records room => ⟨?_, fun c => ?_, fun records' perm => ?_, ?_⟩,
    fun s i taken taken' breq brne => record_congr breq brne s taken taken',
    fun s => ⟨_, fun _ => (isLines_report s).iff_eq, rfl, forall₂_headings s⟩,
    fun s s' => report_inj⟩
  · rw [steps_recordAll, Machine.toNat_add_ofNat (by rwa [start, Nat.zero_add]), start,
      Nat.zero_add]
  · have count : (({} : Statistics).count c).toNat = 0 := by cases c <;> rfl
    have le : (records.countP fun r => r.1.classBy r.2 = c) ≤ records.length :=
      List.countP_le_length
    rw [count_recordAll, Machine.toNat_add_ofNat (by omega), count, Nat.zero_add]
  · rw [recordAll_perm perm]
    exact ⟨rfl, rfl⟩
  · have zero : ({} : Statistics).Balanced := rfl
    rw [map_numberOn_mix, numberOn_steps, sum_mix (zero.recordAll (by omega))]

/-- A branch that is taken, one that is not, a jump and a halt, in two orders. -/
theorem report_law_reordered :
    let records : List (Instruction × Bool) :=
      [(.breq 3, true), (.brne 4, false), (.jump 2, true), (.halt, false)]
    let s := ({} : Statistics).recordAll records
    records.length < 2 ^ 64 ∧ records.Perm records.reverse ∧
    s.steps.toNat = 4 ∧ (s.count .branchTaken).toNat = 1 ∧ (s.count .branchNotTaken).toNat = 1 ∧
    (({} : Statistics).recordAll records.reverse).report = s.report ∧
    ({} : Statistics).recordAll records.reverse = s ∧
    ({} : Statistics).record (.jump 2) true = ({} : Statistics).record (.jump 2) false := by
  intro records s
  have room : records.length < 2 ^ 64 := by decide
  have perm : records.Perm records.reverse := records.reverse_perm.symm
  obtain ⟨counts, kept, -, determined⟩ := report_law
  obtain ⟨steps, classes, order, -⟩ := counts records room
  have report := (order _ perm).2
  exact ⟨room, perm, steps, classes .branchTaken, classes .branchNotTaken, report,
    determined _ _ report, kept {} (.jump 2) true false nofun nofun⟩

end Accumulator.Statistics

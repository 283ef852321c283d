import CcspPandM.ScanFields
import Mathlib.Data.List.Forall2

/-!
The table of processes, read from `/proc`. The row of the next process is written before
it is known whether its entry counts, and is written again if it does not. The name of
the program is copied without an end, so that what an earlier entry left in the row can
show behind it. `long` has 32 bits here.
-/
namespace CcspPandM.ProcessTable

open CString ScanText ScanFields

abbrev ULONG := BitVec 32

def MAX_PROCESS_NUMBER : ℕ := 300

inductive COSA_DML_PROC_STATUS
  | Running | Sleeping | Stopped | Idle | Uninterruptible | Zombie
  deriving DecidableEq

/-- `Command` up to its end, all zeros behind it; `State` is none in a zeroed row. -/
structure COSA_PROCESS_ENTRY where
  Pid : ULONG
  Command : CStr
  Size : ULONG
  Priority : ULONG
  CPUTime : ULONG
  State : Option COSA_DML_PROC_STATUS
  deriving DecidableEq

def zeroEntry : COSA_PROCESS_ENTRY := ⟨0, [], 0, 0, 0, none⟩

/-- `sizeof` the array `Command`. -/
def commandSize : ℕ := 256

section Code

/-- So many of `%*d`, `%*u` or `%d` in a row. -/
def scanInts : ℕ → CStr → Option (List (BitVec 32) × CStr)
  | 0, t => some ([], t)
  | n + 1, t =>
    match scanInt t with
    | none => none
    | some (x, rest) => (scanInts n rest).map fun p => (x :: p.1, p.2)

def scanSize (t : CStr) : Option (BitVec 32) := do
  let (_, t) ← scanInts 2 t
  let t ← scanLiteral ['0'] (t.dropWhile isspace)
  let (xs, _) ← scanInts 2 t
  some (xs.getD 1 0)

/-- The fields behind the name, with `sysconf(_SC_CLK_TCK)` 100. The state is returned if
all are there. A time that is no `int` has no result. -/
def scanStat (p_proc : COSA_PROCESS_ENTRY) :
    CStr → Option (Option Char × COSA_PROCESS_ENTRY)
  | [] => some (none, p_proc)
  | p_state :: t =>
    match scanInts 15 t with
    | none => some (none, p_proc)
    | some (xs, t) =>
      match scanSize t with
      | none => some (none, { p_proc with Priority := xs.getD 14 0 })
      | some size =>
        let time := 10 * ((xs.getD 10 0).toInt + (xs.getD 11 0).toInt)
        if -(2 ^ 31) ≤ time ∧ time < 2 ^ 31 then
          some (some p_state, { p_proc with
            Priority := xs.getD 14 0
            CPUTime := BitVec.ofInt 32 time
            Size := BitVec.ofInt 32 (size.toInt.tdiv 1024) })
        else none

/-- The pointers are the texts behind them. A name that does not fit, or pointers in the
wrong order, have no result. -/
def read_proc_stat (line : CStr) (p_proc : COSA_PROCESS_ENTRY) :
    Option (Option Char × COSA_PROCESS_ENTRY) :=
  let tmp1 := line.dropWhile (· ≠ '(')
  let tmp := line.dropWhile (· ≠ ')')
  if tmp1 = [] ∨ tmp = [] then some (none, p_proc)
  else
    let length := tmp1.length - tmp.length - 1
    if tmp1.length ≤ tmp.length ∨ commandSize ≤ length ∨ tmp.length < 2 then none
    else
      let p_cmd := tmp1.tail.take length ++ p_proc.Command.drop length
      if p_cmd = [] then some (none, { p_proc with Command := p_cmd })
      else scanStat { p_proc with Command := p_cmd } (tmp.drop 2)

def procStatus : Char → COSA_DML_PROC_STATUS
  | 'R' => .Running
  | 'S' => .Sleeping
  | 'D' => .Uninterruptible
  | 'T' => .Stopped
  | 'Z' => .Zombie
  | 'X' => .Zombie
  | _ => .Idle

/-- One name of the directory; `stat` is what `/proc/%lu/stat` holds, if it can be read. -/
def entryStep (stat : ULONG → Option CStr) (name : CStr) (i : ℕ)
    (pProcTable : List COSA_PROCESS_ENTRY) : Option (ℕ × List COSA_PROCESS_ENTRY) :=
  if (name.headD '\x00').isDigit then do
    let row ← pProcTable[i]?
    let pid := BitVec.ofInt 32 (atoi name)
    let p_proc := { row with Pid := pid }
    match stat pid with
    | none => some (i, pProcTable.set i p_proc)
    | some text => do
      let (state, p_proc) ← read_proc_stat (text.take 399) p_proc
      match state with
      | none => some (i, pProcTable.set i p_proc)
      | some state => some (i + 1, pProcTable.set i { p_proc with
          Command := p_proc.Command.takeWhile (· ≠ ')')
          State := some (procStatus state) })
  else some (i, pProcTable)

def processLoop (stat : ULONG → Option CStr) :
    List CStr → ℕ → List COSA_PROCESS_ENTRY → Option (ℕ × List COSA_PROCESS_ENTRY)
  | [], i, pProcTable => some (i, pProcTable)
  | name :: names, i, pProcTable =>
    if i < MAX_PROCESS_NUMBER then
      (entryStep stat name i pProcTable).bind fun p => processLoop stat names p.1 p.2
    else some (i, pProcTable)

/-- `ProcessNumberOfEntries` and the table, for the names that `readdir` gives. -/
def COSADmlGetProcessInfo (stat : ULONG → Option CStr) (names : List CStr) :
    Option (ℕ × List COSA_PROCESS_ENTRY) :=
  processLoop stat names 0 (List.replicate MAX_PROCESS_NUMBER zeroEntry)

end Code

section Proc

/-- A number as `%d` and `%lu` print it. -/
def integerText (z : ℤ) : CStr :=
  if z < 0 then '-' :: decimal z.natAbs else decimal z.natAbs

def integersText (zs : List ℤ) : CStr := zs.flatMap fun z => ' ' :: integerText z

/-- What the kernel tells of a process; `skipped` are the fields between the state and the
times, and `behind` is what follows on the size. -/
structure Stat where
  comm : CStr
  comm_length : comm.length ≤ 15
  state : Char
  skipped : Fin 10 → ℤ
  utime : ℕ
  stime : ℕ
  cutime : ℤ
  cstime : ℤ
  priority : BitVec 32
  nice : ℤ
  num_threads : ℤ
  starttime : ℕ
  vsize : ℕ
  behind : CStr
  ended : Ended behind

def Stat.numbers (s : Stat) : List ℤ :=
  List.ofFn s.skipped ++ [(s.utime : ℤ), s.stime, s.cutime, s.cstime, s.priority.toInt]

def Stat.fields (s : Stat) : CStr :=
  s.state :: (integersText s.numbers ++ (integersText [s.nice, s.num_threads] ++ ' ' :: '0' ::
    (integersText [(s.starttime : ℤ), s.vsize] ++ s.behind)))

def statLine (pid : ℕ) (s : Stat) : CStr :=
  decimal pid ++ [' '] ++ '(' :: (s.comm ++ ')' :: ' ' :: s.fields)

/-- A name in `/proc`: a `pid_t`, or one that does not start with a digit. -/
inductive Name
  | process (pid : Fin (2 ^ 31))
  | other (name : CStr) (h : (name.headD '\x00').isDigit = false)

def Name.text : Name → CStr
  | .process pid => decimal pid
  | .other name _ => name

structure Proc where
  names : List Name
  stats : Fin (2 ^ 31) → Option Stat
  fits : ∀ pid s, stats pid = some s → (statLine pid s).length ≤ 399

def Proc.file (P : Proc) (pid : ULONG) : Option CStr :=
  if h : pid.toNat < 2 ^ 31 then (P.stats ⟨pid.toNat, h⟩).map (statLine pid.toNat) else none

def Proc.readable (P : Proc) (names : List Name) : List (Fin (2 ^ 31) × Stat) :=
  names.filterMap fun
    | .process pid => (P.stats pid).map (pid, ·)
    | .other _ _ => none

structure Reports (p : Fin (2 ^ 31) × Stat) (row : COSA_PROCESS_ENTRY) : Prop where
  pid : row.Pid.toNat = p.1
  command : row.Command = p.2.comm
  size : row.Size.toNat = p.2.vsize / 1024
  priority : row.Priority = p.2.priority
  time : row.CPUTime.toNat = 10 * (p.2.utime + p.2.stime)
  state : row.State = some (procStatus p.2.state)

/-- The rows up to the count are those of the first processes that can be read. -/
def Right (P : Proc) : Prop :=
  ∃ n table, COSADmlGetProcessInfo P.file (P.names.map Name.text) = some (n, table) ∧
    List.Forall₂ Reports ((P.readable P.names).take MAX_PROCESS_NUMBER) (table.take n)

/-- A name that is no part of the format, and numbers that an `int` holds. -/
structure Plain (s : Stat) : Prop where
  named : s.comm ≠ []
  unclosed : ')' ∉ s.comm
  size : s.vsize < 2 ^ 31
  time : 10 * (s.utime + s.stime) < 2 ^ 31

end Proc

/-- What `%d` makes of a number. -/
def clamp (z : ℤ) : BitVec 32 := BitVec.ofInt 32 (max (min z (2 ^ 31 - 1)) (-(2 ^ 31)))

theorem toInt_clamp (z : ℤ) : (clamp z).toInt = max (min z (2 ^ 31 - 1)) (-(2 ^ 31)) := by
  rw [clamp, BitVec.toInt_ofInt]
  apply Int.bmod_eq_of_le <;> omega

theorem clamp_toInt (x : BitVec 32) : clamp x.toInt = x := by
  apply BitVec.eq_of_toInt_eq
  have hlt := x.toInt_lt
  have hle := x.le_toInt
  rw [toInt_clamp]
  omega

section Scan

theorem scanInt_integer (z : ℤ) {rest : CStr} (hrest : ∀ c ∈ rest.head?, c.isDigit = false) :
    scanInt (' ' :: (integerText z ++ rest)) = some (clamp z, rest) := by
  rw [integerText]
  split
  · rename_i hneg
    have hdrop : (' ' :: ('-' :: decimal z.natAbs ++ rest)).dropWhile isspace =
        '-' :: (decimal z.natAbs ++ rest) := rfl
    have hmin : clamp z = BitVec.ofInt 32 (max (-(z.natAbs : ℤ)) (-(2 ^ 31))) := by
      rw [clamp]
      congr 1
      omega
    simp only [scanInt, hdrop, scanDigitsRest_number _ hrest, Option.map_some, hmin]
  · rename_i hpos
    have hmax : clamp z = BitVec.ofInt 32 (min (z.natAbs : ℤ) (2 ^ 31 - 1)) := by
      rw [clamp]
      congr 1
      omega
    have h := scanInt_number z.natAbs gap_blank hrest
    rw [hmax, ← h]
    rfl

theorem scanInts_integers (zs : List ℤ) {rest : CStr}
    (hrest : ∀ c ∈ rest.head?, c.isDigit = false) :
    scanInts zs.length (integersText zs ++ rest) = some (zs.map clamp, rest) := by
  induction zs with
  | nil => rfl
  | cons z zs ih =>
    have hbehind : ∀ c ∈ (integersText zs ++ rest).head?, c.isDigit = false := by
      cases zs with
      | nil => exact hrest
      | cons y ys =>
        intro c hc
        obtain rfl := Option.some.inj hc
        rfl
    have htext : integersText (z :: zs) ++ rest =
        ' ' :: (integerText z ++ (integersText zs ++ rest)) := by
      rw [integersText, List.flatMap_cons, List.append_assoc, List.cons_append]
      rfl
    rw [List.length_cons, scanInts, htext, scanInt_integer z hbehind]
    simp only [ih, Option.map_some, List.map_cons]

theorem scanSize_line (s : Stat) :
    scanSize (integersText [s.nice, s.num_threads] ++ ' ' :: '0' ::
      (integersText [(s.starttime : ℤ), s.vsize] ++ s.behind)) = some (clamp s.vsize) := by
  have hlast := scanInts_integers [(s.starttime : ℤ), s.vsize] (not_digit_of_ended s.ended)
  have hfirst : scanInts 2 (integersText [s.nice, s.num_threads] ++ ' ' :: '0' ::
      (integersText [(s.starttime : ℤ), s.vsize] ++ s.behind)) =
      some ([clamp s.nice, clamp s.num_threads], ' ' :: '0' ::
        (integersText [(s.starttime : ℤ), s.vsize] ++ s.behind)) := by
    apply scanInts_integers [s.nice, s.num_threads]
    intro c hc
    obtain rfl := Option.some.inj hc
    rfl
  have hliteral (t : CStr) : scanLiteral ['0'] ((' ' :: '0' :: t).dropWhile isspace) = some t :=
    scanLiteral_append ['0'] t
  rw [scanSize, hfirst]
  simp only [Option.bind_eq_bind, Option.bind_some, hliteral]
  rw [show (2 : ℕ) = [(s.starttime : ℤ), s.vsize].length from rfl, hlast]
  rfl

theorem scanStat_line (s : Stat) (p_proc : COSA_PROCESS_ENTRY) :
    scanStat p_proc s.fields =
      if 10 * (s.utime + s.stime) < 2 ^ 31 then
        some (some s.state, { p_proc with
          Priority := s.priority
          CPUTime := BitVec.ofInt 32 (10 * (s.utime + s.stime))
          Size := BitVec.ofInt 32 ((clamp s.vsize).toInt.tdiv 1024) })
      else none := by
  have hints : scanInts 15 (integersText s.numbers ++
      (integersText [s.nice, s.num_threads] ++ ' ' :: '0' ::
        (integersText [(s.starttime : ℤ), s.vsize] ++ s.behind))) =
      some (s.numbers.map clamp, integersText [s.nice, s.num_threads] ++ ' ' :: '0' ::
        (integersText [(s.starttime : ℤ), s.vsize] ++ s.behind)) := by
    apply scanInts_integers s.numbers
    intro c hc
    obtain rfl := Option.some.inj hc
    rfl
  have hutime : (s.numbers.map clamp).getD 10 0 = clamp s.utime := rfl
  have hstime : (s.numbers.map clamp).getD 11 0 = clamp s.stime := rfl
  have hpriority : (s.numbers.map clamp).getD 14 0 = s.priority := clamp_toInt s.priority
  simp only [Stat.fields, scanStat, hints, scanSize_line, hutime, hstime, hpriority, toInt_clamp]
  by_cases htime : 10 * (s.utime + s.stime) < 2 ^ 31
  · have hu : max (min (s.utime : ℤ) (2 ^ 31 - 1)) (-(2 ^ 31)) = s.utime := by omega
    have hs : max (min (s.stime : ℤ) (2 ^ 31 - 1)) (-(2 ^ 31)) = s.stime := by omega
    rw [hu, hs, if_pos htime, if_pos (by omega)]
  · rw [if_neg htime, if_neg (by omega)]

end Scan

variable {row : COSA_PROCESS_ENTRY}

section Step

theorem dropWhile_ne {c : Char} {pre rest : CStr} (hpre : c ∉ pre) :
    (pre ++ c :: rest).dropWhile (· ≠ c) = c :: rest := by
  apply (takeWhile_field (fun d hd => ?_) fun d hd => ?_).2
  · exact decide_eq_true fun h => hpre (h ▸ hd)
  · obtain rfl := Option.some.inj hd
    exact decide_eq_false fun h => h rfl

theorem read_proc_stat_split {pre a b : CStr} (hopen : '(' ∉ pre) (hclose : ')' ∉ pre)
    (ha : ')' ∉ a) (hfit : a.length < commandSize) (hb : b ≠ []) (p : COSA_PROCESS_ENTRY) :
    read_proc_stat (pre ++ '(' :: (a ++ ')' :: b)) p =
      if a ++ p.Command.drop a.length = [] then
        some (none, { p with Command := a ++ p.Command.drop a.length })
      else scanStat { p with Command := a ++ p.Command.drop a.length } (b.drop 1) := by
  have hbefore : ')' ∉ pre ++ '(' :: a := by
    rw [List.mem_append, List.mem_cons]
    rintro (h | h | h)
    · exact hclose h
    · exact absurd h (by decide)
    · exact ha h
  have htmp1 := @dropWhile_ne '(' pre (a ++ ')' :: b) hopen
  have htmp : (pre ++ '(' :: (a ++ ')' :: b)).dropWhile (· ≠ ')') = ')' :: b := by
    have h := @dropWhile_ne ')' _ b hbefore
    rwa [List.append_assoc, List.cons_append] at h
  have hlong : ('(' :: (a ++ ')' :: b)).length = a.length + (b.length + 1) + 1 := by
    rw [List.length_cons, List.length_append, List.length_cons]
  have hpos := List.length_pos_iff.mpr hb
  have hlength : ('(' :: (a ++ ')' :: b)).length - (')' :: b).length - 1 = a.length := by
    rw [hlong, List.length_cons]
    omega
  have hroom : ¬ (('(' :: (a ++ ')' :: b)).length ≤ (')' :: b).length ∨
      commandSize ≤ a.length ∨ (')' :: b).length < 2) := by
    rw [hlong, List.length_cons]
    omega
  rw [read_proc_stat]
  simp only [htmp1, htmp, hlength, List.tail_cons, List.take_left]
  rw [if_neg (by simp), if_neg hroom]
  rfl

theorem scanStat_command {p : COSA_PROCESS_ENTRY} {t : CStr}
    {r : Option Char × COSA_PROCESS_ENTRY} (h : scanStat p t = some r) :
    r.2.Command = p.Command := by
  unfold scanStat at h
  split at h
  · rw [← Option.some.inj h]
  · split at h
    · rw [← Option.some.inj h]
    · split at h
      · rw [← Option.some.inj h]
      · dsimp only at h
        split at h
        · rw [← Option.some.inj h]
        · cases h

theorem notMem_decimal {c : Char} (hc : c.isDigit = false) (hblank : c ≠ ' ') (n : ℕ) :
    c ∉ decimal n ++ [' '] := by
  rw [List.mem_append, List.mem_singleton]
  rintro (h | h)
  · rw [isDigit_of_mem_decimal h] at hc
    cases hc
  · exact hblank h

theorem statLine_split (pid : ℕ) (s : Stat) :
    ∃ a b, statLine pid s = decimal pid ++ [' '] ++ '(' :: (a ++ ')' :: b) ∧ ')' ∉ a ∧
      a.length ≤ s.comm.length ∧ b ≠ [] := by
  have hall : s.comm.takeWhile (· ≠ ')') ++ s.comm.dropWhile (· ≠ ')') = s.comm :=
    List.takeWhile_append_dropWhile
  have ha : ')' ∉ s.comm.takeWhile (· ≠ ')') := fun h => by simpa using List.mem_takeWhile_imp h
  have hle : (s.comm.takeWhile (· ≠ ')')).length ≤ s.comm.length :=
    (List.takeWhile_prefix _).length_le
  cases hd : s.comm.dropWhile (· ≠ ')') with
  | nil =>
    rw [hd, List.append_nil] at hall
    rw [hall] at ha
    exact ⟨s.comm, ' ' :: s.fields, rfl, ha, le_refl _, List.cons_ne_nil _ _⟩
  | cons c d =>
    have hc : c = ')' := by
      have h := List.head?_dropWhile_not (· ≠ ')') s.comm
      rw [hd] at h
      simpa using h
    rw [hd, hc] at hall
    refine ⟨_, d ++ ')' :: ' ' :: s.fields, ?_, ha, hle, by simp⟩
    rw [statLine]
    conv_lhs => rw [← hall, List.append_assoc (s.comm.takeWhile _), List.cons_append]

theorem read_proc_stat_line (pid : ℕ) (s : Stat) (p : COSA_PROCESS_ENTRY) :
    ∃ a b, ')' ∉ a ∧ read_proc_stat (statLine pid s) p =
      if a ++ p.Command.drop a.length = [] then
        some (none, { p with Command := a ++ p.Command.drop a.length })
      else scanStat { p with Command := a ++ p.Command.drop a.length } b := by
  obtain ⟨a, b, hline, ha, hle, hb⟩ := statLine_split pid s
  have hcomm := s.comm_length
  have hfit : a.length < commandSize := Nat.lt_of_le_of_lt (hle.trans hcomm) (by decide)
  refine ⟨a, b.drop 1, ha, ?_⟩
  rw [hline, read_proc_stat_split (notMem_decimal rfl (by decide) pid)
    (notMem_decimal rfl (by decide) pid) ha hfit hb]

theorem read_proc_stat_command {pid : ℕ} {s : Stat} {p : COSA_PROCESS_ENTRY}
    {r : Option Char × COSA_PROCESS_ENTRY} (h : read_proc_stat (statLine pid s) p = some r)
    (hp : ')' ∉ p.Command) :
    ')' ∉ r.2.Command ∧ (r.1 ≠ none → r.2.Command ≠ []) := by
  obtain ⟨a, b, ha, hread⟩ := read_proc_stat_line pid s p
  have hcmd : ')' ∉ a ++ p.Command.drop a.length := by
    rw [List.mem_append]
    rintro (h | h)
    · exact ha h
    · exact hp (List.mem_of_mem_drop h)
  rw [hread] at h
  split at h
  · obtain rfl := Option.some.inj h
    exact ⟨hcmd, fun hnone => absurd rfl hnone⟩
  · rename_i hne
    rw [scanStat_command h]
    exact ⟨hcmd, fun _ => hne⟩

theorem read_proc_stat_plain (pid : ℕ) {s : Stat} {p : COSA_PROCESS_ENTRY}
    (hp : p.Command = []) (hne : s.comm ≠ []) (hclose : ')' ∉ s.comm) :
    read_proc_stat (statLine pid s) p =
      if 10 * (s.utime + s.stime) < 2 ^ 31 then
        some (some s.state, { p with
          Command := s.comm
          Priority := s.priority
          CPUTime := BitVec.ofInt 32 (10 * (s.utime + s.stime))
          Size := BitVec.ofInt 32 ((clamp s.vsize).toInt.tdiv 1024) })
      else none := by
  have hfit : s.comm.length < commandSize := Nat.lt_of_le_of_lt s.comm_length (by decide)
  have hcmd : s.comm ++ p.Command.drop s.comm.length = s.comm := by
    rw [hp, List.drop_nil, List.append_nil]
  rw [statLine, read_proc_stat_split (notMem_decimal rfl (by decide) pid)
    (notMem_decimal rfl (by decide) pid) hclose hfit (List.cons_ne_nil _ _), hcmd, if_neg hne,
    List.drop_one, List.tail_cons, scanStat_line]

theorem entryStep_process (P : Proc) (pid : Fin (2 ^ 31)) {i : ℕ}
    {table : List COSA_PROCESS_ENTRY} (hrow : table[i]? = some row) :
    entryStep P.file (decimal pid) i table =
      match P.stats pid with
      | none => some (i, table.set i { row with Pid := BitVec.ofNat 32 pid })
      | some s =>
        (read_proc_stat (statLine pid s) { row with Pid := BitVec.ofNat 32 pid }).bind fun r =>
          match r.1 with
          | none => some (i, table.set i r.2)
          | some state => some (i + 1, table.set i { r.2 with
              Command := r.2.Command.takeWhile (· ≠ ')')
              State := some (procStatus state) }) := by
  obtain ⟨c, cs, hcs, hc⟩ := decimal_eq_cons pid
  have hdigit : ((decimal pid).headD '\x00').isDigit = true := by rw [hcs]; exact hc
  have hpid : BitVec.ofInt 32 (atoi (decimal pid)) = BitVec.ofNat 32 pid := by
    rw [atoi_decimal pid.isLt, BitVec.ofInt_natCast]
  have hnat : (BitVec.ofNat 32 pid.val).toNat = pid := by
    rw [BitVec.toNat_ofNat, Nat.mod_eq_of_lt (by omega)]
  have hfile : P.file (BitVec.ofNat 32 pid) = (P.stats pid).map (statLine pid) := by
    rw [Proc.file, dif_pos (by rw [hnat]; exact pid.isLt)]
    simp only [hnat, Fin.eta]
  rw [entryStep, if_pos hdigit]
  simp only [hrow, hpid, hfile, Option.bind_eq_bind, Option.bind_some]
  cases hs : P.stats pid with
  | none => rfl
  | some s =>
    have htake := List.take_of_length_le (P.fits pid s hs)
    simp only [Option.map_some, htake]

end Step

section Loop

variable (P : Proc)

structure Sound (i : ℕ) (table : List COSA_PROCESS_ENTRY) : Prop where
  length : table.length = MAX_PROCESS_NUMBER
  le : i ≤ MAX_PROCESS_NUMBER
  unclosed : ∀ row ∈ table, ')' ∉ row.Command
  named : ∀ row ∈ table.take i, row.Command ≠ []

theorem Sound.same {i : ℕ} {table : List COSA_PROCESS_ENTRY} (h : Sound i table)
    (hrow : ')' ∉ row.Command) : Sound i (table.set i row) where
  length := by rw [List.length_set, h.length]
  le := h.le
  unclosed r hr := by
    rcases List.mem_or_eq_of_mem_set hr with hr | rfl
    · exact h.unclosed r hr
    · exact hrow
  named r hr := by
    rw [List.take_set_of_le (le_refl i)] at hr
    exact h.named r hr

theorem Sound.next {i : ℕ} {table : List COSA_PROCESS_ENTRY} (h : Sound i table)
    (hi : i < MAX_PROCESS_NUMBER) (hrow : ')' ∉ row.Command)
    (hne : row.Command ≠ []) : Sound (i + 1) (table.set i row) where
  length := by rw [List.length_set, h.length]
  le := hi
  unclosed := (h.same hrow).unclosed
  named r hr := by
    have hlt : i < (table.set i row).length := by rw [List.length_set, h.length]; exact hi
    rw [List.take_succ_eq_append_getElem hlt, List.getElem_set_self, List.mem_append,
      List.mem_singleton] at hr
    rcases hr with hr | rfl
    · exact (h.same hrow).named r hr
    · exact hne

theorem takeWhile_unclosed {t : CStr} (h : ')' ∉ t) : t.takeWhile (· ≠ ')') = t := by
  apply List.takeWhile_eq_self_iff.mpr
  intro c hc
  exact decide_eq_true fun heq => h (heq ▸ hc)

variable {r : ℕ × List COSA_PROCESS_ENTRY}

theorem entryStep_sound {name : Name} {i : ℕ} {table : List COSA_PROCESS_ENTRY}
    (h : Sound i table) (hi : i < MAX_PROCESS_NUMBER)
    (hstep : entryStep P.file name.text i table = some r) : Sound r.1 r.2 := by
  cases name with
  | other name hother =>
    rw [Name.text, entryStep, if_neg (by rw [hother]; decide)] at hstep
    obtain rfl := Option.some.inj hstep
    exact h
  | process pid =>
    have hlt : i < table.length := by rw [h.length]; exact hi
    have hold := h.unclosed _ (List.getElem_mem hlt)
    rw [Name.text, entryStep_process P pid (List.getElem?_eq_getElem hlt)] at hstep
    cases hs : P.stats pid with
    | none =>
      rw [hs] at hstep
      obtain rfl := Option.some.inj hstep
      exact h.same hold
    | some s =>
      rw [hs] at hstep
      obtain ⟨⟨state, row⟩, hread, hrow⟩ := Option.bind_eq_some_iff.mp hstep
      obtain ⟨hclose, hne⟩ := read_proc_stat_command hread hold
      cases state with
      | none =>
        obtain rfl := Option.some.inj hrow
        exact h.same hclose
      | some state =>
        obtain rfl := Option.some.inj hrow
        apply h.next hi
        · exact (takeWhile_unclosed hclose).symm ▸ hclose
        · exact (takeWhile_unclosed hclose).symm ▸ hne nofun

theorem processLoop_sound {names : List Name} {i : ℕ} {table : List COSA_PROCESS_ENTRY}
    (h : Sound i table)
    (hloop : processLoop P.file (names.map Name.text) i table = some r) : Sound r.1 r.2 := by
  induction names generalizing i table with
  | nil =>
    obtain rfl := Option.some.inj hloop
    exact h
  | cons name names ih =>
    rw [List.map_cons, processLoop] at hloop
    split at hloop
    · rename_i hi
      obtain ⟨r', hstep, hrest⟩ := Option.bind_eq_some_iff.mp hloop
      exact ih (entryStep_sound P h hi hstep) hrest
    · obtain rfl := Option.some.inj hloop
      exact h

theorem processLoop_frame {names : List CStr} {stat : ULONG → Option CStr} {i : ℕ}
    {table : List COSA_PROCESS_ENTRY}
    (h : processLoop stat names i table = some r) : i ≤ r.1 ∧ ∀ j < i, r.2[j]? = table[j]? := by
  induction names generalizing i table with
  | nil =>
    obtain rfl := Option.some.inj h
    exact ⟨le_refl i, fun _ _ => rfl⟩
  | cons name names ih =>
    rw [processLoop] at h
    split at h
    · obtain ⟨⟨k, t⟩, hstep, hrest⟩ := Option.bind_eq_some_iff.mp h
      have hone : i ≤ k ∧ ∀ j < i, t[j]? = table[j]? := by
        have hset (row : COSA_PROCESS_ENTRY) : ∀ j < i, (table.set i row)[j]? = table[j]? :=
          fun j hj => List.getElem?_set_ne (by omega)
        unfold entryStep at hstep
        split at hstep
        · obtain ⟨row, -, hstep⟩ := Option.bind_eq_some_iff.mp hstep
          dsimp only at hstep
          split at hstep
          · obtain ⟨rfl, rfl⟩ := Prod.mk.inj (Option.some.inj hstep)
            exact ⟨le_refl i, hset _⟩
          · obtain ⟨r', -, hstep⟩ := Option.bind_eq_some_iff.mp hstep
            split at hstep
            · obtain ⟨rfl, rfl⟩ := Prod.mk.inj (Option.some.inj hstep)
              exact ⟨le_refl i, hset _⟩
            · obtain ⟨rfl, rfl⟩ := Prod.mk.inj (Option.some.inj hstep)
              exact ⟨Nat.le_succ i, hset _⟩
        · obtain ⟨rfl, rfl⟩ := Prod.mk.inj (Option.some.inj hstep)
          exact ⟨le_refl i, fun _ _ => rfl⟩
      obtain ⟨hle, hsame⟩ := ih hrest
      exact ⟨hone.1.trans hle, fun j hj => (hsame j (by omega)).trans (hone.2 j hj)⟩
    · obtain rfl := Option.some.inj h
      exact ⟨le_refl i, fun _ _ => rfl⟩

theorem reports_iff (pid : Fin (2 ^ 31)) (s : Stat) {time size : ULONG}
    (htime : 10 * (s.utime + s.stime) < 2 ^ 31)
    (ht : time = BitVec.ofInt 32 (10 * (s.utime + s.stime)))
    (hsize : size = BitVec.ofInt 32 ((clamp s.vsize).toInt.tdiv 1024)) :
    Reports (pid, s) ⟨BitVec.ofNat 32 pid, s.comm, size, s.priority, time,
      some (procStatus s.state)⟩ ↔ s.vsize < 2 ^ 31 := by
  have hpid : (BitVec.ofNat 32 pid.val).toNat = pid := by
    rw [BitVec.toNat_ofNat, Nat.mod_eq_of_lt (by omega)]
  have hms : time.toNat = 10 * (s.utime + s.stime) := by
    have hcast : (10 * ((s.utime : ℤ) + s.stime)) = ((10 * (s.utime + s.stime) : ℕ) : ℤ) := by
      omega
    rw [ht, hcast, BitVec.ofInt_natCast, BitVec.toNat_ofNat, Nat.mod_eq_of_lt (by omega)]
  have hkb : size.toNat = min s.vsize (2 ^ 31 - 1) / 1024 := by
    have hcast : max (min (s.vsize : ℤ) (2 ^ 31 - 1)) (-(2 ^ 31)) =
        ((min s.vsize (2 ^ 31 - 1) : ℕ) : ℤ) := by omega
    have hdiv : ((min s.vsize (2 ^ 31 - 1) : ℕ) : ℤ).tdiv 1024 =
        ((min s.vsize (2 ^ 31 - 1) / 1024 : ℕ) : ℤ) := rfl
    rw [hsize, toInt_clamp, hcast, hdiv, BitVec.ofInt_natCast, BitVec.toNat_ofNat,
      Nat.mod_eq_of_lt (by omega)]
  constructor
  · intro h
    have hsame := h.size
    simp only [hkb] at hsame
    omega
  · intro hlt
    refine ⟨hpid, rfl, ?_, rfl, hms, rfl⟩
    rw [hkb, Nat.min_eq_left (by omega)]

theorem drop_take_cons {t : List COSA_PROCESS_ENTRY} {n i : ℕ}
    (hi : i < n) (hrow : t[i]? = some row) :
    (t.take n).drop i = row :: (t.take n).drop (i + 1) := by
  have hget : (t.take n)[i]? = some row := by rw [List.getElem?_take_of_lt hi, hrow]
  obtain ⟨hlt, hval⟩ := List.getElem?_eq_some_iff.mp hget
  rw [List.drop_eq_getElem_cons hlt, hval]

theorem processLoop_right_iff {names : List Name} {i : ℕ} {table : List COSA_PROCESS_ENTRY}
    (hlength : table.length = MAX_PROCESS_NUMBER)
    (hfresh : ∀ j row, i ≤ j → table[j]? = some row → row.Command = [])
    (hplain : ∀ x ∈ (P.readable names).take (MAX_PROCESS_NUMBER - i),
      x.2.comm ≠ [] ∧ ')' ∉ x.2.comm) :
    (∃ n t, processLoop P.file (names.map Name.text) i table = some (n, t) ∧
      List.Forall₂ Reports ((P.readable names).take (MAX_PROCESS_NUMBER - i))
        ((t.take n).drop i)) ↔
      ∀ x ∈ (P.readable names).take (MAX_PROCESS_NUMBER - i),
        x.2.vsize < 2 ^ 31 ∧ 10 * (x.2.utime + x.2.stime) < 2 ^ 31 := by
  have hstop (l : List COSA_PROCESS_ENTRY) (k : ℕ) : (l.take k).drop k = [] :=
    List.drop_eq_nil_of_le (List.length_take_le k l)
  induction names generalizing i table with
  | nil =>
    have hnone : P.readable [] = [] := rfl
    rw [hnone, List.take_nil]
    exact iff_of_true ⟨i, table, rfl, by rw [hstop]; exact .nil⟩
      fun _ h => absurd h List.not_mem_nil
  | cons name names ih =>
    by_cases hi : i < MAX_PROCESS_NUMBER
    · have hlt : i < table.length := by rw [hlength]; exact hi
      have hrow := List.getElem?_eq_getElem hlt
      have hclean := hfresh i _ (le_refl i) hrow
      rw [List.map_cons, processLoop, if_pos hi]
      -- an entry that does not count leaves its number in the row and nothing else
      have hskip {row : COSA_PROCESS_ENTRY} (hcmd : row.Command = []) :=
        @ih i (table.set i row) (by rw [List.length_set, hlength]) (fun j r hj hr => by
          by_cases hij : i = j
          · subst hij
            rw [List.getElem?_set_self hlt] at hr
            rw [← Option.some.inj hr, hcmd]
          · rw [List.getElem?_set_ne hij] at hr
            exact hfresh j r hj hr)
      cases name with
      | other name hother =>
        have hread : P.readable (.other name hother :: names) = P.readable names := rfl
        rw [hread] at hplain ⊢
        rw [Name.text, entryStep, if_neg (by rw [hother]; decide)]
        exact ih hlength hfresh hplain
      | process pid =>
        rw [Name.text, entryStep_process P pid hrow]
        cases hs : P.stats pid with
        | none =>
          have hread : P.readable (.process pid :: names) = P.readable names := by
            simp only [Proc.readable, List.filterMap_cons, hs, Option.map_none]
          rw [hread] at hplain ⊢
          exact hskip hclean hplain
        | some s =>
          have hread : P.readable (.process pid :: names) = (pid, s) :: P.readable names := by
            simp only [Proc.readable, List.filterMap_cons, hs, Option.map_some]
          have hsub : MAX_PROCESS_NUMBER - i = MAX_PROCESS_NUMBER - (i + 1) + 1 := by omega
          rw [hread, hsub, List.take_succ_cons] at hplain ⊢
          rw [List.forall_mem_cons] at hplain ⊢
          obtain ⟨⟨hne, hclose⟩, hrest⟩ := hplain
          have hstat := @read_proc_stat_plain pid s
            { table[i] with Pid := BitVec.ofNat 32 pid } hclean hne hclose
          simp only [hstat]
          by_cases htime : 10 * (s.utime + s.stime) < 2 ^ 31
          · simp only [if_pos htime, Option.bind_some, takeWhile_unclosed hclose]
            have hstored := @reports_iff pid s _ _ htime rfl rfl
            set row : COSA_PROCESS_ENTRY := ⟨BitVec.ofNat 32 pid, s.comm, _, s.priority, _,
              some (procStatus s.state)⟩
            have hset : (table.set i row)[i]? = some row := List.getElem?_set_self hlt
            have hmore := @ih (i + 1) (table.set i row) (by rw [List.length_set, hlength])
              (fun j r hj hr => hfresh j r (Nat.le_of_succ_le hj)
                ((List.getElem?_set_ne (Nat.ne_of_lt hj)).symm.trans hr)) hrest
            refine Iff.trans ?_ (and_congr (hstored.trans (and_iff_left htime).symm) hmore)
            constructor
            · rintro ⟨n, t, hloop, hrows⟩
              obtain ⟨hn, hsame⟩ := processLoop_frame hloop
              rw [drop_take_cons hn ((hsame i (Nat.lt_succ_self i)).trans hset)] at hrows
              obtain ⟨hfirst, hothers⟩ := List.forall₂_cons.mp hrows
              exact ⟨hfirst, n, t, hloop, hothers⟩
            · rintro ⟨hfirst, n, t, hloop, hothers⟩
              obtain ⟨hn, hsame⟩ := processLoop_frame hloop
              refine ⟨n, t, hloop, ?_⟩
              rw [drop_take_cons hn ((hsame i (Nat.lt_succ_self i)).trans hset)]
              exact .cons hfirst hothers
          · rw [if_neg htime, Option.bind_none]
            refine iff_of_false ?_ fun h => htime h.1.2
            rintro ⟨n, t, h, -⟩
            cases h
    · have hzero : MAX_PROCESS_NUMBER - i = 0 := by omega
      rw [hzero, List.take_zero, List.map_cons, processLoop, if_neg hi]
      exact iff_of_true ⟨i, table, rfl, by rw [hstop]; exact .nil⟩ fun _ h =>
        absurd h List.not_mem_nil

end Loop

theorem sound_start : Sound 0 (List.replicate MAX_PROCESS_NUMBER zeroEntry) where
  length := List.length_replicate
  le := Nat.zero_le _
  unclosed row hrow := by
    rw [List.eq_of_mem_replicate hrow]
    exact List.not_mem_nil
  named row hrow := by
    rw [List.take_zero] at hrow
    exact absurd hrow List.not_mem_nil

theorem named_of_right {P : Proc} (h : Right P) :
    ∀ x ∈ (P.readable P.names).take MAX_PROCESS_NUMBER,
      x.2.comm ≠ [] ∧ ')' ∉ x.2.comm := by
  obtain ⟨n, table, hloop, hrows⟩ := h
  have hsound := processLoop_sound P sound_start hloop
  intro x hx
  obtain ⟨k, hk, rfl⟩ := List.mem_iff_getElem.mp hx
  have hk' : k < (table.take n).length := by rw [← hrows.length_eq]; exact hk
  have hreports : Reports ((P.readable P.names).take MAX_PROCESS_NUMBER)[k] (table.take n)[k] :=
    hrows.get hk hk'
  have hrow := List.getElem_mem hk'
  rw [← hreports.command]
  exact ⟨hsound.named _ hrow, hsound.unclosed _ (List.mem_of_mem_take hrow)⟩

section Parenthesis

def worker : Stat where
  comm := "a)b".toList
  comm_length := by decide
  state := 'S'
  skipped := fun _ => 1
  utime := 5
  stime := 5
  cutime := 0
  cstime := 0
  priority := 20
  nice := 0
  num_threads := 1
  starttime := 100
  vsize := 1048576
  behind := []
  ended := fun c hc => by cases hc

def listing : Proc where
  names := [.process 7]
  stats := fun pid => if pid = 7 then some worker else none
  fits := fun pid s h => by
    split at h
    · rename_i hpid
      rw [hpid, ← Option.some.inj h]
      decide
    · cases h

end Parenthesis

end CcspPandM.ProcessTable

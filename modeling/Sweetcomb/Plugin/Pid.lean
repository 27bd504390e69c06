import Sweetcomb.Loop
import Sweetcomb.Utils

open loop

namespace sweetcomb

/-- The bytes of an ASCII text. -/
def ascii (text : String) : List UInt8 :=
  text.toList.map fun c => UInt8.ofNat c.toNat

def VPP_FULL_PATH : List UInt8 := ascii "/usr/bin/vpp"

/-- `sizeof(VPP_FULL_PATH)`, with the byte that ends the literal. -/
def sizeof_VPP_FULL_PATH : Nat := VPP_FULL_PATH.length + 1

/-- No such process. -/
def ESRCH : Nat := 3

/-- `atoi`: zero without digits. -/
def atoi (text : String) : Int :=
  (stoi text.toList).getD 0

/-- The text before the first NUL. -/
def c_string (bytes : List UInt8) : List UInt8 :=
  bytes.takeWhile (· != 0)

/-- The first call of `strtok`: leading delimiters are skipped, and there may be
    nothing else. -/
def strtok (text : List UInt8) (delim : UInt8) : Option (List UInt8) :=
  let token := text.dropWhile (· == delim)
  if token.isEmpty then none else some (token.takeWhile (· != delim))

inductive d_type_t where
  | DT_UNKNOWN
  | DT_FIFO
  | DT_CHR
  | DT_DIR
  | DT_BLK
  | DT_REG
  | DT_LNK
  | DT_SOCK
deriving DecidableEq

/-- An entry of /proc and its file "cmdline", which can be read or fails to
    open. Only processes have one, so a directory with such a file has a
    process number for its name. -/
structure dirent where
  d_name : String
  d_type : d_type_t
  cmdline : Except Nat (List UInt8)
  named : d_type = .DT_DIR → d_name ≠ "." → d_name ≠ ".." → cmdline.isOk = true → 0 < atoi d_name

/-- What `readdir` yields: entries up to the end or to an error of its own. -/
structure proc_t where
  entries : List dirent
  readdir_errno : Option Nat := none

/-- A directory of its own. -/
def dirent.listed (ptr : dirent) : Bool :=
  ptr.d_name != "." && ptr.d_name != ".." && ptr.d_type == .DT_DIR

def is_vpp (first : List UInt8) : Bool :=
  first == ascii "vpp" || first == VPP_FULL_PATH

/-- The loop body of `get_vpp_pid`. It leaves the loop with a pid, or goes on
    with the value of errno. -/
def get_vpp_pid_step (errno : Nat) (ptr : dirent) : Except Int Nat :=
  if ptr.d_name = "." ∨ ptr.d_name = ".." then .ok errno
  else if ptr.d_type ≠ .DT_DIR then .ok errno
  else
    match ptr.cmdline with
    | .error open_errno => .ok open_errno
    | .ok text =>
      let filetext := text.take sizeof_VPP_FULL_PATH
      if filetext.length = 0 then .ok errno
      else
        match strtok (c_string filetext) (UInt8.ofNat ' '.toNat) with
        | none => .ok errno
        | some first => if is_vpp first then .error (atoi ptr.d_name) else .ok 0

def get_vpp_pid (errno : Nat) (opendir : Except Nat proc_t) : Int :=
  match opendir with
  | .error opendir_errno => -opendir_errno
  | .ok proc =>
    match proc.entries.foldlM get_vpp_pid_step errno with
    | .error pid => pid
    | .ok errno =>
      let errno := proc.readdir_errno.getD errno
      if errno ≠ 0 then -errno else -ESRCH

/-- The command of a text: its first word before the first NUL. -/
def command (text : List UInt8) : Option (List UInt8) :=
  strtok (c_string text) (UInt8.ofNat ' '.toNat)

/-- The text of a process, when it can be read. -/
def dirent.text (ptr : dirent) : Option (List UInt8) :=
  if ptr.listed then ptr.cmdline.toOption else none

/-- The process runs VPP. -/
def dirent.runs_vpp (ptr : dirent) : Bool :=
  ((ptr.text.bind command).map is_vpp).getD false

/-- The part of the text that is read names VPP. -/
def dirent.reads_vpp (ptr : dirent) : Bool :=
  ((ptr.text.bind fun text => command (text.take sizeof_VPP_FULL_PATH)).map is_vpp).getD false

/-- What an entry that is passed over makes of errno: the error of an open that
    failed, or nothing left once another command was read. -/
def dirent.leaves (ptr : dirent) : Option Nat :=
  if ptr.listed then
    match ptr.cmdline with
    | .error open_errno => some open_errno
    | .ok text => (command (text.take sizeof_VPP_FULL_PATH)).map fun _ => 0
  else none

/-- VPP is found and nothing else: the first process that runs it, -ESRCH when
    there is none, and no pid of anything else. -/
structure FindsVpp (proc : proc_t) (result : Int) : Prop where
  first : ∀ ptr, proc.entries.find? dirent.runs_vpp = some ptr → result = atoi ptr.d_name
  absent : (∀ ptr ∈ proc.entries, ptr.runs_vpp = false) → proc.readdir_errno = none → result = -ESRCH
  nothing_else : 0 < result → ∃ ptr ∈ proc.entries, ptr.runs_vpp = true ∧ atoi ptr.d_name = result

variable {ptr : dirent} {errno : Nat} {entries : List dirent} {proc : proc_t}

theorem get_vpp_pid_step_of_not_listed (hlisted : ptr.listed = false) : get_vpp_pid_step errno ptr = .ok errno := by
  simp only [dirent.listed, Bool.and_eq_false_iff, bne_eq_false_iff_eq, beq_eq_false_iff_ne, or_assoc] at hlisted
  unfold get_vpp_pid_step
  rcases hlisted with hname | hname | htype
  · rw [if_pos (.inl hname)]
  · rw [if_pos (.inr hname)]
  · split <;> rfl

/-- A process is left at once when what is read of its text names VPP. -/
theorem get_vpp_pid_step_of_listed (hlisted : ptr.listed = true) :
    get_vpp_pid_step errno ptr = if ptr.reads_vpp then .error (atoi ptr.d_name) else .ok (ptr.leaves.getD errno) := by
  have hentry := hlisted
  simp only [dirent.listed, Bool.and_eq_true, bne_iff_ne, beq_iff_eq] at hentry
  obtain ⟨⟨hdot, hdotdot⟩, hdir⟩ := hentry
  unfold get_vpp_pid_step
  rw [if_neg (by simp [hdot, hdotdot]), if_neg (by simp [hdir])]
  cases hcmdline : ptr.cmdline with
  | error open_errno =>
    simp [dirent.reads_vpp, dirent.leaves, dirent.text, hlisted, hcmdline, Except.toOption]
  | ok text =>
    have hread : ptr.reads_vpp = ((command (text.take sizeof_VPP_FULL_PATH)).map is_vpp).getD false := by
      simp [dirent.reads_vpp, dirent.text, hlisted, hcmdline, Except.toOption]
    have hleaves : ptr.leaves = (command (text.take sizeof_VPP_FULL_PATH)).map fun _ => 0 := by
      simp [dirent.leaves, hlisted, hcmdline]
    rw [hread, hleaves]
    by_cases hempty : (text.take sizeof_VPP_FULL_PATH).length = 0
    · have hnothing : command (text.take sizeof_VPP_FULL_PATH) = none := by
        rw [List.length_eq_zero_iff.mp hempty]
        rfl
      simp only [hempty, if_true, hnothing, Option.map_none, Option.getD_none, Bool.false_eq_true, if_false]
    · simp only [hempty, if_false]
      change (match command (text.take sizeof_VPP_FULL_PATH) with
        | none => Except.ok errno
        | some first => if is_vpp first = true then Except.error (atoi ptr.d_name) else Except.ok 0) = _
      cases command (text.take sizeof_VPP_FULL_PATH) with
      | none => rfl
      | some first => rfl

/-- Entries that do not read as VPP are passed over. -/
theorem get_vpp_pid_accepting :
    Accepting get_vpp_pid_step (fun _ => True) (fun ptr => !ptr.reads_vpp)
      (fun errno ptr => ptr.leaves.getD errno) := by
  refine ⟨fun errno ptr _ haccepts => ?_, fun _ _ _ _ => trivial⟩
  cases hlisted : ptr.listed with
  | false =>
    have hleaves : ptr.leaves = none := by simp [dirent.leaves, hlisted]
    rw [get_vpp_pid_step_of_not_listed hlisted, hleaves]
    rfl
  | true =>
    rw [Bool.not_eq_true'] at haccepts
    rw [get_vpp_pid_step_of_listed hlisted, haccepts]
    rfl

/-- Both readings of a text are of a process, whose number is positive. -/
theorem dirent.text_pos {text : List UInt8} (htext : ptr.text = some text) : 0 < atoi ptr.d_name := by
  unfold dirent.text at htext
  split at htext
  · next hlisted =>
    simp only [dirent.listed, Bool.and_eq_true, bne_iff_ne, beq_iff_eq] at hlisted
    refine ptr.named hlisted.2 hlisted.1.1 hlisted.1.2 ?_
    cases hcmdline : ptr.cmdline with
    | error open_errno =>
      rw [hcmdline] at htext
      cases htext
    | ok text => rfl
  · cases htext

theorem dirent.runs_vpp_pos (hruns : ptr.runs_vpp = true) : 0 < atoi ptr.d_name := by
  cases htext : ptr.text with
  | none =>
    rw [dirent.runs_vpp, htext] at hruns
    cases hruns
  | some text => exact dirent.text_pos htext

theorem dirent.reads_vpp_pos (hreads : ptr.reads_vpp = true) : 0 < atoi ptr.d_name := by
  cases htext : ptr.text with
  | none =>
    rw [dirent.reads_vpp, htext] at hreads
    cases hreads
  | some text => exact dirent.text_pos htext

theorem dirent.listed_of_reads_vpp (hreads : ptr.reads_vpp = true) : ptr.listed = true := by
  by_contra hlisted
  simp [dirent.reads_vpp, dirent.text, hlisted] at hreads

/-- The scan stops at the first entry that reads as VPP. -/
theorem get_vpp_pid_of_reads (hfind : proc.entries.find? dirent.reads_vpp = some ptr) :
    get_vpp_pid errno (.ok proc) = atoi ptr.d_name := by
  obtain ⟨hreads, before, after, hsplit, hbefore⟩ := List.find?_eq_some_iff_append.mp hfind
  have hexit : get_vpp_pid_step (before.foldl (fun errno ptr => ptr.leaves.getD errno) errno) ptr =
      .error (atoi ptr.d_name) := by
    rw [get_vpp_pid_step_of_listed (dirent.listed_of_reads_vpp hreads), hreads]
    rfl
  have hscan := get_vpp_pid_accepting.foldlM_eq_error errno trivial hbefore hexit after
  rw [← hsplit] at hscan
  simp only [get_vpp_pid, hscan]

/-- A scan that stops nowhere tells what is left of errno. -/
theorem get_vpp_pid_of_none (hnone : ∀ ptr ∈ proc.entries, ptr.reads_vpp = false) :
    get_vpp_pid errno (.ok proc) =
      let left := proc.readdir_errno.getD (latest dirent.leaves errno proc.entries)
      if left ≠ 0 then -(left : Int) else -ESRCH := by
  have hpassed : ∀ ptr ∈ proc.entries, (!ptr.reads_vpp) = true := by simpa using hnone
  have hscan := get_vpp_pid_accepting.foldlM_eq_ok errno trivial hpassed
  simp only [get_vpp_pid, hscan]
  rfl

theorem get_vpp_pid_of_none_nonpos (hnone : ∀ ptr ∈ proc.entries, ptr.reads_vpp = false) :
    get_vpp_pid errno (.ok proc) ≤ 0 := by
  rw [get_vpp_pid_of_none hnone]
  dsimp only
  split <;> omega

/-- A name shorter than what is read of a word is told by that much. -/
theorem is_vpp_take (token : List UInt8) : is_vpp (token.take sizeof_VPP_FULL_PATH) = is_vpp token := by
  have hname : ∀ name : List UInt8, name.length < sizeof_VPP_FULL_PATH →
      (token.take sizeof_VPP_FULL_PATH == name) = (token == name) := by
    intro name hlength
    by_cases hshort : token.length ≤ sizeof_VPP_FULL_PATH
    · rw [List.take_of_length_le hshort]
    · have htake : (token.take sizeof_VPP_FULL_PATH).length = sizeof_VPP_FULL_PATH := by
        rw [List.length_take]
        omega
      have hread : token.take sizeof_VPP_FULL_PATH ≠ name := by
        rintro rfl
        omega
      have hwhole : token ≠ name := by
        rintro rfl
        omega
      rw [beq_false_of_ne hread, beq_false_of_ne hwhole]
  unfold is_vpp
  rw [hname (ascii "vpp") (by decide), hname VPP_FULL_PATH (by decide)]

theorem command_of_head {text : List UInt8} {head : UInt8} {tail : List UInt8} (htext : c_string text = head :: tail)
    (hhead : head ≠ UInt8.ofNat ' '.toNat) :
    command text = some ((c_string text).takeWhile (· != UInt8.ofNat ' '.toNat)) := by
  have hstart : (head == UInt8.ofNat ' '.toNat) = false := beq_false_of_ne hhead
  have hdrop : (c_string text).dropWhile (· == UInt8.ofNat ' '.toNat) = c_string text := by
    simp only [htext, List.dropWhile_cons, hstart, Bool.false_eq_true, if_false]
  have hempty : (c_string text).isEmpty = false := by rw [htext, List.isEmpty_cons]
  simp only [command, strtok, hdrop, hempty, Bool.false_eq_true, if_false]

/-- Where a text starts with its command, the part that is read decides it: it
    is one byte longer than the longer name. -/
theorem is_vpp_command_take {text : List UInt8} (hstart : text.head? ≠ some (UInt8.ofNat ' '.toNat)) :
    (command (text.take sizeof_VPP_FULL_PATH)).map is_vpp = (command text).map is_vpp := by
  have hread : c_string (text.take sizeof_VPP_FULL_PATH) = (c_string text).take sizeof_VPP_FULL_PATH :=
    List.take_takeWhile.symm
  cases htext : c_string text with
  | nil =>
    rw [htext, List.take_nil] at hread
    simp only [command, hread, htext]
  | cons head tail =>
    have hhead : head ≠ UInt8.ofNat ' '.toNat := by
      obtain ⟨rest, hrest⟩ : c_string text <+: text := List.takeWhile_prefix _
      rw [htext, List.cons_append] at hrest
      rw [← hrest, List.head?_cons] at hstart
      exact fun h => hstart (congrArg some h)
    have hread_cons : c_string (text.take sizeof_VPP_FULL_PATH) = head :: tail.take 12 := by
      rw [hread, htext]
      rfl
    rw [command_of_head hread_cons hhead, command_of_head htext hhead, hread, ← List.take_takeWhile,
      Option.map_some, is_vpp_take, Option.map_some]

/-- A process whose text starts with its command reads as VPP when it runs
    it. -/
theorem dirent.reads_vpp_eq_runs_vpp
    (hstart : ∀ text, ptr.text = some text → text.head? ≠ some (UInt8.ofNat ' '.toNat)) :
    ptr.reads_vpp = ptr.runs_vpp := by
  unfold dirent.reads_vpp dirent.runs_vpp
  cases htext : ptr.text with
  | none => rfl
  | some text => exact congrArg (Option.getD · false) (is_vpp_command_take (hstart text htext))

/-- A process that reads as VPP is right when the first that runs it has its
    pid. -/
theorem finds_of_reads {read : dirent} (hread : proc.entries.find? dirent.reads_vpp = some read) :
    FindsVpp proc (get_vpp_pid errno (.ok proc)) ↔
      ∃ run, proc.entries.find? dirent.runs_vpp = some run ∧ atoi read.d_name = atoi run.d_name := by
  rw [get_vpp_pid_of_reads hread]
  constructor
  · intro hfinds
    obtain ⟨ptr, hmem, hruns, _⟩ := hfinds.nothing_else (dirent.reads_vpp_pos (List.find?_some hread))
    obtain ⟨run, hrun⟩ := Option.isSome_iff_exists.mp (List.find?_isSome.mpr ⟨ptr, hmem, hruns⟩)
    exact ⟨run, hrun, hfinds.first run hrun⟩
  · rintro ⟨run, hrun, hpid⟩
    have hmem := List.mem_of_find?_eq_some hrun
    have hruns := List.find?_some hrun
    refine ⟨fun ptr hptr => ?_, fun habsent => ?_, fun _ => ⟨run, hmem, hruns, hpid.symm⟩⟩
    · rw [hrun] at hptr
      cases hptr
      exact hpid
    · rw [habsent run hmem] at hruns
      cases hruns

/-- Without one that reads as VPP none may run it, and no other error than ESRCH
    be left behind. -/
theorem finds_of_none (hunread : ∀ ptr ∈ proc.entries, ptr.reads_vpp = false) :
    FindsVpp proc (get_vpp_pid errno (.ok proc)) ↔
      (∀ ptr ∈ proc.entries, ptr.runs_vpp = false) ∧
        (proc.readdir_errno ≠ none ∨ latest dirent.leaves errno proc.entries = 0 ∨
          latest dirent.leaves errno proc.entries = ESRCH) := by
  have hnonpos := @get_vpp_pid_of_none_nonpos errno proc hunread
  have hleft (hreaddir : proc.readdir_errno = none) :
      get_vpp_pid errno (.ok proc) = -ESRCH ↔
        latest dirent.leaves errno proc.entries = 0 ∨ latest dirent.leaves errno proc.entries = ESRCH := by
    rw [get_vpp_pid_of_none hunread, hreaddir, Option.getD_none]
    dsimp only
    split <;> omega
  constructor
  · intro hfinds
    have hunrun : ∀ ptr ∈ proc.entries, ptr.runs_vpp = false := by
      intro ptr hmem
      by_contra hruns
      rw [Bool.not_eq_false] at hruns
      obtain ⟨run, hrun⟩ := Option.isSome_iff_exists.mp (List.find?_isSome.mpr ⟨ptr, hmem, hruns⟩)
      have hpid := hfinds.first run hrun
      have hpos := dirent.runs_vpp_pos (List.find?_some hrun)
      omega
    refine ⟨hunrun, ?_⟩
    by_cases hreaddir : proc.readdir_errno = none
    · exact .inr ((hleft hreaddir).mp (hfinds.absent hunrun hreaddir))
    · exact .inl hreaddir
  · rintro ⟨hunrun, hcondition⟩
    refine ⟨fun ptr hptr => ?_, fun _ hreaddir => ?_, fun hpos => by omega⟩
    · have hruns := List.find?_some hptr
      rw [hunrun ptr (List.mem_of_find?_eq_some hptr)] at hruns
      cases hruns
    · exact (hleft hreaddir).mpr (hcondition.resolve_left fun hne => hne hreaddir)

/-- VPP is found and nothing else exactly when the first process that reads as
    VPP and the first that runs it have one pid, or when there is neither and no
    other error than ESRCH is left behind at the end. -/
theorem get_vpp_pid_finds_iff (proc : proc_t) (errno : Nat) :
    FindsVpp proc (get_vpp_pid errno (.ok proc)) ↔
      (∃ read run, proc.entries.find? dirent.reads_vpp = some read ∧ proc.entries.find? dirent.runs_vpp = some run ∧
        atoi read.d_name = atoi run.d_name) ∨
      ((∀ ptr ∈ proc.entries, ptr.reads_vpp = false ∧ ptr.runs_vpp = false) ∧
        (proc.readdir_errno ≠ none ∨ latest dirent.leaves errno proc.entries = 0 ∨
          latest dirent.leaves errno proc.entries = ESRCH)) := by
  cases hread : proc.entries.find? dirent.reads_vpp with
  | some read =>
    have hmem := List.mem_of_find?_eq_some hread
    have hreads := List.find?_some hread
    rw [finds_of_reads hread]
    constructor
    · rintro ⟨run, hrun, hpid⟩
      exact .inl ⟨read, run, rfl, hrun, hpid⟩
    · rintro (⟨_, run, hsame, hrun, hpid⟩ | ⟨hneither, _⟩)
      · cases hsame
        exact ⟨run, hrun, hpid⟩
      · rw [(hneither read hmem).1] at hreads
        cases hreads
  | none =>
    have hunread : ∀ ptr ∈ proc.entries, ptr.reads_vpp = false := by simpa using hread
    rw [finds_of_none hunread]
    constructor
    · rintro ⟨hunrun, hcondition⟩
      exact .inr ⟨fun ptr hmem => ⟨hunread ptr hmem, hunrun ptr hmem⟩, hcondition⟩
    · rintro (⟨_, _, hsame, _⟩ | ⟨hneither, hcondition⟩)
      · cases hsame
      · exact ⟨fun ptr hmem => (hneither ptr hmem).2, hcondition⟩

/-- A process whose file is gone when it is opened is all that the listing
    has. -/
def vanished : proc_t where
  entries := [{ d_name := "1", d_type := .DT_DIR, cmdline := .error 2, named := by decide }]

theorem get_vpp_pid_not_esrch : ¬ FindsVpp vanished (get_vpp_pid 0 (.ok vanished)) := by
  intro hfinds
  have habsent := hfinds.absent (by decide) rfl
  exact absurd habsent (by decide)

end sweetcomb

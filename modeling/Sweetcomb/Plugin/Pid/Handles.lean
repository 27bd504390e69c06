import Sweetcomb.Callback
import Sweetcomb.Plugin.Pid

open loop

namespace sweetcomb

/-- What `get_vpp_pid` opens and closes: the listing of /proc and the files of its
    entries. -/
inductive handle_call where
  | opendir
  | closedir
  | fopen
  | fclose
deriving DecidableEq

/-- The loop body of `get_vpp_pid`, with what it has opened and closed. -/
def get_vpp_pid_round (state : Nat × List handle_call) (ptr : dirent) :
    Except (Int × List handle_call) (Nat × List handle_call) :=
  let (errno, log) := state
  if ptr.d_name = "." ∨ ptr.d_name = ".." then .ok (errno, log)
  else if ptr.d_type ≠ .DT_DIR then .ok (errno, log)
  else
    match ptr.cmdline with
    | .error open_errno => .ok (open_errno, log)
    | .ok text =>
      let log := log ++ [.fopen]
      let filetext := text.take sizeof_VPP_FULL_PATH
      if filetext.length = 0 then .ok (errno, log ++ [.fclose])
      else
        match strtok (c_string filetext) (UInt8.ofNat ' '.toNat) with
        | none => .ok (errno, log ++ [.fclose])
        | some first =>
          if is_vpp first then .error (atoi ptr.d_name, log ++ [.fclose] ++ [.closedir])
          else .ok (0, log ++ [.fclose])

/-- `get_vpp_pid` with what it opens and closes. An error that is left in errno
    returns past `closedir`. -/
def get_vpp_pid_scan (errno : Nat) (opendir : Except Nat proc_t) : Int × List handle_call :=
  match opendir with
  | .error opendir_errno => (-opendir_errno, [])
  | .ok proc =>
    match proc.entries.foldlM get_vpp_pid_round (errno, [.opendir]) with
    | .error (pid, log) => (pid, log)
    | .ok (errno, log) =>
      let errno := proc.readdir_errno.getD errno
      if errno ≠ 0 then (-errno, log) else (-ESRCH, log ++ [.closedir])

/-- The file of an entry is opened when it is a directory with a file that can be
    read, and closed at once. -/
def dirent.files (ptr : dirent) : List handle_call :=
  if ptr.text.isSome then [.fopen, .fclose] else []

section rounds

variable {errno : Nat} {log : List handle_call} {ptr : dirent} {entries : List dirent}

theorem get_vpp_pid_round_eq : get_vpp_pid_round (errno, log) ptr =
    match get_vpp_pid_step errno ptr with
    | .ok errno => .ok (errno, log ++ ptr.files)
    | .error pid => .error (pid, log ++ ptr.files ++ [.closedir]) := by
  cases hlisted : ptr.listed with
  | false =>
    have hfiles : ptr.files = [] := by simp [dirent.files, dirent.text, hlisted]
    simp only [dirent.listed, Bool.and_eq_false_iff, bne_eq_false_iff_eq, beq_eq_false_iff_ne, or_assoc] at hlisted
    unfold get_vpp_pid_round get_vpp_pid_step
    rcases hlisted with hname | hname | htype
    · simp [hname, hfiles]
    · simp [hname, hfiles]
    · by_cases hdots : ptr.d_name = "." ∨ ptr.d_name = ".." <;> simp [hdots, htype, hfiles]
  | true =>
    have hentry := hlisted
    simp only [dirent.listed, Bool.and_eq_true, bne_iff_ne, beq_iff_eq] at hentry
    obtain ⟨⟨hdot, hdotdot⟩, hdir⟩ := hentry
    unfold get_vpp_pid_round get_vpp_pid_step
    cases hcmdline : ptr.cmdline with
    | error open_errno =>
      have hfiles : ptr.files = [] := by simp [dirent.files, dirent.text, hlisted, hcmdline, Except.toOption]
      simp [hdot, hdotdot, hdir, hfiles]
    | ok text =>
      have hfiles : ptr.files = [.fopen, .fclose] := by
        simp [dirent.files, dirent.text, hlisted, hcmdline, Except.toOption]
      simp only [hdot, hdotdot, hdir, hfiles, or_self, if_false, ne_eq, not_true_eq_false]
      split
      · simp
      · cases strtok (c_string (text.take sizeof_VPP_FULL_PATH)) (UInt8.ofNat ' '.toNat) with
        | none => simp
        | some first => cases hvpp : is_vpp first <;> simp [hvpp]

end rounds

/-- The entries that are looked at: those up to the first that reads as VPP. -/
def looked_at (entries : List dirent) : List dirent :=
  entries.takeWhile (fun ptr => !ptr.reads_vpp) ++ (entries.find? dirent.reads_vpp).toList

/-- VPP is not found, and errno is left with an error. -/
def leaks (errno : Nat) : Except Nat proc_t → Bool
  | .error _ => false
  | .ok proc =>
    proc.entries.all (fun ptr => !ptr.reads_vpp) &&
      proc.readdir_errno.getD (latest dirent.leaves errno proc.entries) != 0

section scans

variable {errno : Nat} {log : List handle_call} {entries : List dirent}

theorem get_vpp_pid_rounds_eq : entries.foldlM get_vpp_pid_round (errno, log) =
    match entries.foldlM get_vpp_pid_step errno with
    | .ok errno => .ok (errno, log ++ (looked_at entries).flatMap dirent.files)
    | .error pid => .error (pid, log ++ (looked_at entries).flatMap dirent.files ++ [.closedir]) := by
  induction entries generalizing errno log with
  | nil =>
    simp [looked_at]
    rfl
  | cons ptr entries ih =>
    rw [List.foldlM_cons, List.foldlM_cons, get_vpp_pid_round_eq]
    cases hreads : ptr.reads_vpp with
    | true =>
      have hlooked : looked_at (ptr :: entries) = [ptr] := by simp [looked_at, hreads]
      rw [get_vpp_pid_step_of_listed (dirent.listed_of_reads_vpp hreads), hreads, hlooked]
      simp
    | false =>
      have hlooked : looked_at (ptr :: entries) = ptr :: looked_at entries := by simp [looked_at, hreads]
      rw [get_vpp_pid_accepting.step errno ptr trivial (by simp [hreads]), hlooked]
      simp only [ok_bind, ih, List.flatMap_cons, List.append_assoc]

/-- A scan ends as `get_vpp_pid` does. It has opened the files of the entries looked
    at, one after the other, and closes the listing unless it leaks. -/
theorem get_vpp_pid_scan_eq (errno : Nat) (proc : proc_t) : get_vpp_pid_scan errno (.ok proc) =
    (get_vpp_pid errno (.ok proc), .opendir :: (looked_at proc.entries).flatMap dirent.files ++
      if leaks errno (.ok proc) then [] else [.closedir]) := by
  simp only [get_vpp_pid_scan, get_vpp_pid, get_vpp_pid_rounds_eq, leaks]
  rcases accepted_or_split (fun ptr => !ptr.reads_vpp) proc.entries with
    hall | ⟨before, ptr, after, hsplit, hbefore, hnot⟩
  · have hscan : proc.entries.foldlM get_vpp_pid_step errno = .ok (latest dirent.leaves errno proc.entries) :=
      get_vpp_pid_accepting.foldlM_eq_ok errno trivial hall
    have hpassed : proc.entries.all (fun ptr => !ptr.reads_vpp) = true := List.all_eq_true.mpr hall
    simp only [hscan, hpassed, Bool.true_and, bne_iff_ne]
    by_cases hleft : proc.readdir_errno.getD (latest dirent.leaves errno proc.entries) = 0 <;> simp [hleft]
  · have hreads : ptr.reads_vpp = true := by simpa using hnot
    have hexit : get_vpp_pid_step (before.foldl (fun errno ptr => ptr.leaves.getD errno) errno) ptr =
        .error (atoi ptr.d_name) := by
      rw [get_vpp_pid_step_of_listed (dirent.listed_of_reads_vpp hreads), hreads]
      rfl
    have hscan := get_vpp_pid_accepting.foldlM_eq_error errno trivial hbefore hexit after
    rw [← hsplit] at hscan
    have hfound : proc.entries.all (fun ptr => !ptr.reads_vpp) = false := by
      rw [List.all_eq_false]
      exact ⟨ptr, hsplit ▸ by simp, by simp [hreads]⟩
    simp only [hscan, hfound, Bool.false_and, Bool.false_eq_true, if_false, List.singleton_append]

end scans

/-- A call of `get_vpp_pid`: errno before it, and /proc as it is. -/
structure scan_t where
  errno : Nat
  opendir : Except Nat proc_t

def scan_t.calls (scan : scan_t) : List handle_call := (get_vpp_pid_scan scan.errno scan.opendir).2

def scan_t.leaks (scan : scan_t) : Bool := sweetcomb.leaks scan.errno scan.opendir

/-- Every file that is opened is closed before anything else is done. -/
def FilesClosed : List handle_call → Prop
  | [] => True
  | .fopen :: .fclose :: rest => FilesClosed rest
  | .fopen :: _ => False
  | .fclose :: _ => False
  | .opendir :: rest => FilesClosed rest
  | .closedir :: rest => FilesClosed rest

section ledger

theorem FilesClosed.append {first second : List handle_call} (hfirst : FilesClosed first)
    (hsecond : FilesClosed second) : FilesClosed (first ++ second) := by
  fun_induction FilesClosed first with
  | case1 => exact hsecond
  | case2 rest ih => exact ih hfirst
  | case3 => exact hfirst.elim
  | case4 => exact hfirst.elim
  | case5 rest ih => exact ih hfirst
  | case6 rest ih => exact ih hfirst

theorem files_closed (entries : List dirent) : FilesClosed (entries.flatMap dirent.files) ∧
    (entries.flatMap dirent.files).count .opendir = 0 ∧ (entries.flatMap dirent.files).count .closedir = 0 := by
  induction entries with
  | nil => exact ⟨trivial, rfl, rfl⟩
  | cons ptr entries ih =>
    obtain ⟨hclosed, hopendir, hclosedir⟩ := ih
    rw [List.flatMap_cons, List.count_append, List.count_append, hopendir, hclosedir]
    unfold dirent.files
    split
    · exact ⟨hclosed, rfl, rfl⟩
    · exact ⟨hclosed, rfl, rfl⟩

/-- One scan opens the listing once, and closes it unless it leaks. -/
theorem scan_ledger (scan : scan_t) : FilesClosed scan.calls ∧
    scan.calls.count .opendir = scan.calls.count .closedir + if scan.leaks then 1 else 0 := by
  obtain ⟨errno, opendir⟩ := scan
  cases opendir with
  | error opendir_errno => exact ⟨trivial, rfl⟩
  | ok proc =>
    obtain ⟨hclosed, hopendir, hclosedir⟩ := files_closed (looked_at proc.entries)
    simp only [scan_t.calls, scan_t.leaks, get_vpp_pid_scan_eq, List.cons_append]
    by_cases hleaks : leaks errno (.ok proc) = true
    · simp only [if_pos hleaks, List.append_nil]
      exact ⟨hclosed, by simp [hopendir, hclosedir, hleaks]⟩
    · simp only [if_neg hleaks]
      exact ⟨FilesClosed.append hclosed trivial, by simp [hopendir, hclosedir, hleaks]⟩

/-- However often VPP is looked for, every file is closed at once, and as many
    listings stay open as scans have ended without VPP but with an error in errno. -/
theorem listings_left_open (scans : List scan_t) :
    let calls := scans.flatMap scan_t.calls
    (∀ scan ∈ scans, (get_vpp_pid_scan scan.errno scan.opendir).1 = get_vpp_pid scan.errno scan.opendir) ∧
      FilesClosed calls ∧ calls.count .opendir = calls.count .closedir + scans.countP scan_t.leaks := by
  intro calls
  refine ⟨?_, ?_⟩
  · rintro ⟨errno, opendir⟩ -
    cases opendir with
    | error opendir_errno => rfl
    | ok proc => rw [get_vpp_pid_scan_eq]
  · induction scans with
    | nil => exact ⟨trivial, rfl⟩
    | cons scan scans ih =>
      obtain ⟨hclosed, hcounts⟩ := scan_ledger scan
      refine ⟨hclosed.append ih.1, ?_⟩
      simp only [calls, List.flatMap_cons, List.count_append, List.countP_cons, hcounts] at ih ⊢
      omega

/-- A file that cannot be opened is enough where VPP does not run. -/
example : ({ errno := 0, opendir := .ok vanished } : scan_t).leaks = true := by decide

end ledger

end sweetcomb

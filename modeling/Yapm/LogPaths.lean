import Yapm.Paths

/-!
# The log files of a process

A logger opens two files by default, whose paths are made of the name of the process. The name is
put into them as it is : what precedes its last slash says in which directory they are, and what
follows it how they are called. So two processes keep their logs apart, and in the directory of
the logs, exactly when the one name does not lead out of it and both do not lead to the same
place (`separate_iff`). Names without slashes never do (`separate_of_notMem`).
-/

open Paths

namespace Yapm

/-- `root_stdout` of `ProcessLogger::new`. -/
def rootStdout (pname : String) : List Char :=
  let stdoutPath := (pname ++ "_output.log").toList
  join "logs".toList stdoutPath

/-- `root_stderr` of `ProcessLogger::new`. -/
def rootStderr (pname : String) : List Char :=
  let stderrPath := (pname ++ "_err.log").toList
  join "logs".toList stderrPath

/-- The files that are opened, when the daemon works in `cwd`. -/
def logFiles (cwd : Dir) (pname : String) : List Dir :=
  [resolve cwd (rootStdout pname), resolve cwd (rootStderr pname)]

/-- The directory of the logs. -/
def logsDir (cwd : Dir) : Dir :=
  resolve cwd "logs".toList

/-- The files of one process are among the logs, and none of them is one of the other's. -/
def Separate (cwd : Dir) (a b : String) : Prop :=
  ∀ file ∈ logFiles cwd a, Inside (logsDir cwd) file ∧ file ∉ logFiles cwd b

/-- Where the files are. -/
theorem logFiles_eq (cwd : Dir) (pname : String) : logFiles cwd pname =
    [directory (logsDir cwd) pname.toList ++ [fileName pname.toList ++ "_output.log".toList],
      directory (logsDir cwd) pname.toList ++ [fileName pname.toList ++ "_err.log".toList]] := by
  have hfile (s : String) (hs : '/' ∉ s.toList) (hlength : 2 < s.toList.length) :
      resolve cwd (join "logs".toList (pname ++ s).toList) =
        directory (logsDir cwd) pname.toList ++ [fileName pname.toList ++ s.toList] := by
    rw [resolve_join, String.toList_append]
    exact resolve_append hs hlength (logsDir cwd) pname.toList
  rw [← hfile "_output.log" (by decide +kernel) (by decide +kernel),
    ← hfile "_err.log" (by decide +kernel) (by decide +kernel)]
  rfl

/-- The streams of processes are told apart by how their files end. -/
theorem output_ne_err (n n' : List Char) :
    n ++ "_output.log".toList ≠ n' ++ "_err.log".toList := by
  intro h
  have houtput : "_output.log".toList = "_outpu".toList ++ "t.log".toList := by decide +kernel
  have herr : "_err.log".toList = "_er".toList ++ "r.log".toList := by decide +kernel
  rw [houtput, herr, ← List.append_assoc, ← List.append_assoc] at h
  have hend := (List.append_inj' h (by decide +kernel)).2
  exact absurd hend (by decide +kernel)

/-- Two processes keep their logs apart, and among the logs, exactly when the part of the one name
before its last slash does not lead out of the directory of the logs, and not both names lead
to one directory and end alike. -/
theorem separate_iff (cwd : Dir) (a b : String) : Separate cwd a b ↔
    logsDir cwd <+: directory (logsDir cwd) a.toList ∧
      ¬(directory (logsDir cwd) a.toList = directory (logsDir cwd) b.toList ∧
        fileName a.toList = fileName b.toList) := by
  have hne (n n' : List Char) := output_ne_err n n'
  have hne' (n n' : List Char) := (output_ne_err n n').symm
  rw [Separate, logFiles_eq, logFiles_eq, List.forall_mem_cons, List.forall_mem_singleton]
  simp only [inside_append_iff, List.mem_cons, List.append_singleton_inj,
    List.append_cancel_right_eq, hne, hne', and_false, List.not_mem_nil, or_false, false_or,
    and_self]

/-- Names without slashes keep their logs apart. -/
theorem separate_of_notMem (cwd : Dir) {a b : String} (ha : '/' ∉ a.toList) (hb : '/' ∉ b.toList)
    (hne : a ≠ b) : Separate cwd a b := by
  rw [separate_iff, directory_of_notMem ha, directory_of_notMem hb, (parents_of_notMem ha).2,
    (parents_of_notMem hb).2, String.toList_inj]
  exact ⟨List.prefix_rfl, fun h => hne h.2⟩

/-- A name that leads out of the directory of the logs, and two names for one place in it. -/
theorem names_escape_and_collide :
    ¬Separate ["srv".toList] "../daemon" "db" ∧ ¬Separate ["srv".toList] "db" "./db" := by
  rw [separate_iff, separate_iff]
  decide +kernel

end Yapm

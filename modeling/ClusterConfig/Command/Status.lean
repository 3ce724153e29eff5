/-!
# How a command ended

A command ends with an exit code or by a signal. An exit code is cut to one byte; zero is success.
-/

namespace ClusterConfig

/-- How a command ended. -/
inductive ExitStatus where
  | code (value : UInt8)
  | signal (number : Nat)
  deriving DecidableEq, Repr

namespace ExitStatus

/-- The command succeeded. -/
def success : ExitStatus → Bool
  | code value => value == 0
  | signal _ => false

/-- The exit code, if the command ended with one. -/
def code? : ExitStatus → Option Nat
  | code value => some value.toNat
  | signal _ => none

/-- The signal, if the command ended by one. -/
def signal? : ExitStatus → Option Nat
  | code _ => none
  | signal number => some number

/-- The names of signals. -/
def signalNames : List (Nat × String) := [
  (1, "HUP"), (2, "INT"), (3, "QUIT"), (4, "ILL"), (5, "TRAP"), (6, "ABRT"), (7, "BUS"), (8, "FPE"), (9, "KILL"),
  (10, "USR1"), (11, "SEGV"), (12, "USR2"), (13, "PIPE"), (14, "ALRM"), (15, "TERM"), (16, "STKFLT"), (17, "CHLD"),
  (18, "CONT"), (19, "STOP"), (20, "TSTP"), (21, "TTIN"), (22, "TTOU"), (23, "URG"), (24, "XCPU"), (25, "XFSZ"),
  (26, "VTALRM"), (27, "PROF"), (28, "WINCH"), (29, "IO"), (30, "PWR"), (31, "SYS")]

/-- The status in words. -/
def message : ExitStatus → String
  | code value => "exit status: " ++ toString value.toNat
  | signal number =>
    "signal: " ++ toString number ++ match signalNames.lookup number with
      | some name => " (SIG" ++ name ++ ")"
      | none => ""

/-- The status as one number, as a shell sees it. -/
def shellCode : ExitStatus → UInt8
  | code value => value
  | signal number => (128 + number).toUInt8

end ExitStatus

end ClusterConfig

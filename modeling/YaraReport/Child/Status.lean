/-
This file defines how a child process ends: by itself with a code, or by a
signal.
-/

namespace YaraReport

inductive ExitStatus where
  | code (value : Nat)
  | signal (number : Nat)
  deriving DecidableEq, Repr

namespace ExitStatus

/-- The names of the signals, the first of them having number one. -/
def signalNames : List String :=
  ["SIGHUP", "SIGINT", "SIGQUIT", "SIGILL", "SIGTRAP", "SIGABRT", "SIGBUS", "SIGFPE", "SIGKILL",
    "SIGUSR1", "SIGSEGV", "SIGUSR2", "SIGPIPE", "SIGALRM", "SIGTERM", "SIGSTKFLT", "SIGCHLD",
    "SIGCONT", "SIGSTOP", "SIGTSTP", "SIGTTIN", "SIGTTOU", "SIGURG", "SIGXCPU", "SIGXFSZ",
    "SIGVTALRM", "SIGPROF", "SIGWINCH", "SIGIO", "SIGPWR", "SIGSYS"]

def signalLabel (number : Nat) : String :=
  match number with
  | 0 => ""
  | position + 1 =>
    match signalNames[position]? with
    | some name => " (" ++ name ++ ")"
    | none => ""

def shown : ExitStatus → String
  | .code value => "exit status: " ++ toString value
  | .signal number => "signal: " ++ toString number ++ signalLabel number

def isSuccess (status : ExitStatus) : Bool := status = .code 0

end ExitStatus

end YaraReport

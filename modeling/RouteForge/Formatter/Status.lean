/-! How a program ended: with a code, or by a signal. -/
namespace RouteForge

inductive Status where
  | exited (code : Nat)
  | killed (signal : Nat)
  deriving DecidableEq, Repr

namespace Status

def succeeded (s : Status) : Bool := s = exited 0

/-- The names of the signals below 32 by their numbers. -/
def signalName? : Nat → Option String
  | 1 => some "SIGHUP"
  | 2 => some "SIGINT"
  | 3 => some "SIGQUIT"
  | 4 => some "SIGILL"
  | 5 => some "SIGTRAP"
  | 6 => some "SIGABRT"
  | 7 => some "SIGBUS"
  | 8 => some "SIGFPE"
  | 9 => some "SIGKILL"
  | 10 => some "SIGUSR1"
  | 11 => some "SIGSEGV"
  | 12 => some "SIGUSR2"
  | 13 => some "SIGPIPE"
  | 14 => some "SIGALRM"
  | 15 => some "SIGTERM"
  | 16 => some "SIGSTKFLT"
  | 17 => some "SIGCHLD"
  | 18 => some "SIGCONT"
  | 19 => some "SIGSTOP"
  | 20 => some "SIGTSTP"
  | 21 => some "SIGTTIN"
  | 22 => some "SIGTTOU"
  | 23 => some "SIGURG"
  | 24 => some "SIGXCPU"
  | 25 => some "SIGXFSZ"
  | 26 => some "SIGVTALRM"
  | 27 => some "SIGPROF"
  | 28 => some "SIGWINCH"
  | 29 => some "SIGIO"
  | 30 => some "SIGPWR"
  | 31 => some "SIGSYS"
  | _ => none

def text : Status → String
  | exited code => "exit status: " ++ toString code
  | killed signal =>
    "signal: " ++ toString signal ++
      ((signalName? signal).map (fun n => " (" ++ n ++ ")")).getD ""

end Status
end RouteForge

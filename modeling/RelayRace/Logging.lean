/-!
# Log levels and the installed logger

A line is logged when the installed logger admits its level. A logger is
installed at most once: `Installed.install` keeps the first one that was
installed and ignores every later one.
-/

namespace RelayRace

/-- How grave a log line is, gravest first. -/
inductive Level where
  | error
  | warn
  | info
  | debug
  | trace
  deriving DecidableEq, Repr, Inhabited

namespace Level

/-- Every level, gravest first. -/
def all : List Level := [.error, .warn, .info, .debug, .trace]

/-- The place of a level in the order from grave to fine. -/
def rank : Level → Nat
  | .error => 0
  | .warn => 1
  | .info => 2
  | .debug => 3
  | .trace => 4

/-- The name under which a level is shown. -/
def name : Level → String
  | .error => "Error"
  | .warn => "Warn"
  | .info => "Info"
  | .debug => "Debug"
  | .trace => "Trace"

/-- Reads a level's name. -/
def ofName? (text : String) : Option Level := all.find? fun level => level.name == text

end Level

/-- Where log lines go: to the terminal, or nowhere, in which case the logger
only filters and the host program writes the lines. -/
inductive LogTarget where
  | terminal
  | nowhere
  deriving DecidableEq, Repr

/-- How a logger is set up. -/
structure LogConfig where
  enabled : Bool := true
  level : Level := .info
  target : LogTarget := .terminal
  deriving DecidableEq, Repr

namespace LogConfig

/-- No logging. -/
def disabled : LogConfig := { enabled := false }

/-- Logging while the program is being worked on. -/
def development : LogConfig := { level := .debug }

/-- Logging in service. -/
def production : LogConfig := {}

/-- Whether lines of a level are logged: the logger is enabled and the level is
no finer than the one that was asked for. -/
def admits (config : LogConfig) (level : Level) : Bool :=
  config.enabled && level.rank ≤ config.level.rank

end LogConfig

/-- The logger of a process, if one has been installed. -/
structure Installed where
  config : Option LogConfig := none
  deriving DecidableEq, Repr

namespace Installed

/-- Installs a logger unless there is one. -/
def install (installed : Installed) (config : LogConfig) : Installed :=
  match installed.config with
  | some _ => installed
  | none => ⟨some config⟩

/-- Whether lines of a level are logged. Without a logger none are. -/
def admits (installed : Installed) (level : Level) : Bool :=
  match installed.config with
  | some config => config.admits level
  | none => false

theorem install_install (installed : Installed) (first second : LogConfig) :
    (installed.install first).install second = installed.install first := by
  cases h : installed.config <;> simp [install, h]

end Installed

end RelayRace

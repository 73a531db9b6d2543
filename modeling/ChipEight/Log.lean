/-
This file holds the log: levels of severity and the records that operations leave behind.
-/

namespace ChipEight

/-- The severity of a record. -/
inductive Level where
  | debug
  | info
  | warning
  | error
  | critical
  deriving DecidableEq, Repr

namespace Level

def name : Level → String
  | debug => "DEBUG"
  | info => "INFO"
  | warning => "WARNING"
  | error => "ERROR"
  | critical => "CRITICAL"

/-- Levels are compared by these numbers, which users also write. -/
def number : Level → Int
  | debug => 10
  | info => 20
  | warning => 30
  | error => 40
  | critical => 50

def all : List Level := [debug, info, warning, error, critical]

def ofName? (text : String) : Option Level :=
  all.find? fun level => level.name == text

end Level

/-- One line of the log before it is written anywhere. -/
structure Record where
  level : Level
  logger : String
  text : String
  deriving DecidableEq, Repr

/-- The line that a console or a log file shows for a record. -/
def Record.line (record : Record) : String :=
  record.logger ++ " - " ++ record.level.name ++ " - " ++ record.text

end ChipEight

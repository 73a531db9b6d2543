/-
This file names the categories under which errors are counted and reported.
-/

namespace ChipEight

/-- What an error concerns. -/
inductive Category where
  | bounds
  | structural
  | decode
  | configuration
  | input
  | system
  | unknown
  deriving DecidableEq, Repr

namespace Category

def name : Category → String
  | bounds => "BOUNDS"
  | structural => "STRUCTURAL"
  | decode => "DECODE"
  | configuration => "CONFIGURATION"
  | input => "INPUT"
  | system => "SYSTEM"
  | unknown => "UNKNOWN"

def all : List Category := [bounds, structural, decode, configuration, input, system, unknown]

def ofName? (text : String) : Option Category :=
  all.find? fun category => category.name == text

end Category

end ChipEight

/-
This file orders keys. Numbers are ordered by value, texts by the numbers of their characters, and days
and moments by time; keys of unlike kinds have no order.
-/

import ChipEight.Value

namespace ChipEight

/-- Where a key stands among keys of its kind. -/
inductive Rank where
  | text (characters : String)
  | number (place : Place)
  | day (number : Nat)
  | localTime (ticks : Int)
  | worldTime (ticks : Int)

/-- The first rank is not after the second, if they are of one kind. -/
def Rank.atMost? : Rank → Rank → Option Bool
  | text first, text second => some (first ≤ second)
  | number first, number second => some (!second.less first)
  | day first, day second => some (first ≤ second)
  | localTime first, localTime second => some (first ≤ second)
  | worldTime first, worldTime second => some (first ≤ second)
  | _, _ => none

namespace Key

def rank? : Key → Option Rank
  | text characters => some (.text characters)
  | null => none
  | date known => some (.day known.number)
  | moment time =>
      some (match time.worldTicks? with
        | some ticks => .worldTime ticks
        | none => .localTime time.ticks)
  | key => key.toValue.place?.map .number

/-- The first key is not after the second, if they have an order. -/
def atMost? (first second : Key) : Option Bool := do
  (← first.rank?).atMost? (← second.rank?)

/-- Each two of the keys have an order. -/
def areOrdered : List Key → Bool
  | first :: second :: rest => (first.atMost? second).isSome && areOrdered (second :: rest)
  | _ => true

/-- The keys from the least on, if they have an order. -/
def sorted? (keys : List Key) : Option (List Key) :=
  if areOrdered keys then
    some (keys.mergeSort fun first second => (first.atMost? second).getD true)
  else none

end Key

end ChipEight

/-! How something is to be said: the wishes that come with a request. -/

namespace Orator

/-- Which punctuation marks the listener wants to hear by name. -/
inductive PunctuationMode where
  | all | most | some | none
deriving DecidableEq, Repr

/-- How many punctuation marks an engine reads out. -/
inductive PunctuationLevel where
  | none | some | most | all
deriving DecidableEq, Repr

/-- How capital letters are announced. No engine can do it. -/
inductive CapitalsMode where
  | none | spell | icon
deriving DecidableEq, Repr

namespace PunctuationMode

def name : PunctuationMode → String
  | all => "all"
  | most => "most"
  | some => "some"
  | none => "none"

def level : PunctuationMode → PunctuationLevel
  | all => .all
  | most => .most
  | some => .some
  | none => .none

end PunctuationMode

def PunctuationLevel.name : PunctuationLevel → String
  | none => "none"
  | some => "some"
  | most => "most"
  | all => "all"

def CapitalsMode.name : CapitalsMode → String
  | none => "none"
  | spell => "spell"
  | icon => "icon"

/-- The manner of one utterance. Rate and pitch are meant to lie between -100 and 100. -/
structure Prosody where
  /-- A language asked for; the chosen voice decides all the same. -/
  language : Option String := none
  voice : Option String := none
  rate : Int32 := 0
  pitch : Int32 := 0
  pitchRange : Int32 := 0
  volume : Int32 := 0
  punctuation : PunctuationMode := .some
  capitals : CapitalsMode := .none
deriving DecidableEq, Repr

end Orator

import Tagtext.Text

/-!
# Configuration

What an engine lets its user choose: how deep pairs of tags may nest, what is
put in place of a tag whose handler fails, what becomes of an opening tag that
is never closed, and how long one evaluation may take.
-/

namespace Tagtext

/-- What is put in place of a tag whose handler fails. -/
inductive Failure where
  /-- Nothing. -/
  | empty
  /-- A fixed text. -/
  | placeholder (text : Text)
  deriving DecidableEq, Repr

/-- The text put in place of a tag whose handler fails. -/
def Failure.replacement : Failure → Text
  | empty => []
  | placeholder t => t

/-- What becomes of an opening tag that no closing tag matches. -/
inductive Unclosed where
  /-- Its handler is called with empty content. -/
  | standalone
  /-- It is kept as it is written. -/
  | literal
  deriving DecidableEq, Repr

/-- The choices that an engine is built with. -/
structure Config where
  /-- How many pairs of tags may be open at a time. -/
  maxNestingDepth : Nat := 128
  failure : Failure := .empty
  unclosed : Unclosed := .standalone
  /-- The time that one evaluation may take, in milliseconds. -/
  timeout : Option Nat := none
  deriving DecidableEq, Repr

/-- Why a configuration is refused. -/
inductive ConfigError where
  /-- Its text is not that of a configuration. -/
  | unreadable
  /-- It lets no pair of tags nest. -/
  | zeroDepth
  deriving DecidableEq, Repr

/-- The words that report a refused configuration. -/
def ConfigError.message : ConfigError → Text
  | unreadable => "invalid configuration".toList
  | zeroDepth =>
    "invalid configuration value for 'max_nesting_depth': must be at least 1".toList

/-- The configuration, if it can be worked with. -/
def Config.validate (c : Config) : Except ConfigError Config :=
  if c.maxNestingDepth = 0 then .error .zeroDepth else .ok c

end Tagtext

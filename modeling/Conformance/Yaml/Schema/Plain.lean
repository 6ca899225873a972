import Conformance.Text.Pattern
import Conformance.Yaml.Node

/-!
# Kinds of plain scalars

What a plain scalar is can be seen from its text: a truth value, a number, a point in time, the
absent value, one of two keys with a meaning of their own, and otherwise a text.
-/

namespace Conformance.Yaml

open Text Text.Pattern

/-- A decimal digit. -/
def digit : Pattern := oneOf "0123456789"

/-- A decimal digit or an underscore. -/
def digitOrLow : Pattern := oneOf "0123456789_"

/-- A sign or nothing. -/
def sign : Pattern := optional (oneOf "+-")

/-- A colon and a number below sixty. -/
def sixtieth : Pattern := all [word ":", optional (oneOf "012345"), digit]

/-- Truth values. -/
def boolPattern : Pattern :=
  words ["yes", "Yes", "YES", "no", "No", "NO", "true", "True", "TRUE", "false", "False", "FALSE",
    "on", "On", "ON", "off", "Off", "OFF"]

/-- An exponent with a sign, or nothing. -/
def exponentPattern : Pattern := optional (all [oneOf "eE", oneOf "+-", repeated digit])

/-- Numbers with a point. -/
def floatPattern : Pattern :=
  any [all [sign, digit, many digitOrLow, word ".", many digitOrLow, exponentPattern],
    all [word ".", digit, many digitOrLow, exponentPattern],
    all [sign, digit, many digitOrLow, repeated sixtieth, word ".", many digitOrLow],
    all [sign, word ".", words ["inf", "Inf", "INF"]],
    all [word ".", words ["nan", "NaN", "NAN"]]]

/-- Whole numbers: in base two, eight, ten, sixteen and sixty. -/
def intPattern : Pattern :=
  let decimal := (oneOf "123456789").next (many digitOrLow)
  sign.next (any [
    all [word "0b", repeated (oneOf "01_")],
    all [word "0", repeated (oneOf "01234567_")],
    word "0",
    decimal,
    all [word "0x", repeated (oneOf "0123456789abcdefABCDEF_")],
    decimal.next (repeated sixtieth)])

/-- The absent value. -/
def nullPattern : Pattern := words ["~", "null", "Null", "NULL", ""]

/-- Dates, and dates with a time of day. -/
def timestampPattern : Pattern :=
  let year := all [digit, digit, digit, digit]
  let two := digit.next digit
  let short := digit.next (optional digit)
  let blanks := many (oneOf " \t")
  let separator := (oneOf "Tt").or (repeated (oneOf " \t"))
  let fraction := optional ((word ".").next (many digit))
  let offset := all [oneOf "+-", short, optional ((word ":").next two)]
  any [all [year, word "-", two, word "-", two],
    all [year, word "-", short, word "-", short, separator, short, word ":", two, word ":", two,
      fraction, optional (blanks.next ((word "Z").or offset))]]

/-- The kinds that plain scalars are tried for, in order. -/
def plainKinds : List (Pattern × Tag) :=
  [(boolPattern, .bool), (floatPattern, .float), (intPattern, .int), (word "<<", .merge),
   (nullPattern, .null), (timestampPattern, .timestamp), (word "=", .default),
   (words ["!", "&", "*"], .unknown)]

/-- Kind of a plain scalar. -/
def plainTag (text : List Char) : Tag :=
  ((plainKinds.find? (fun e => e.1.accepts text)).map (·.2)).getD .str

end Conformance.Yaml

import TraceFold.Json.Basic

/-!
# The text of a JSON string

A string stands for a text if its `\u` escapes above `\ud7ff` come in pairs: a high surrogate with
a low one right after it.  `textOf` finds the text or the first fault, which may be the one at
which the string was cut off.  `glyphsOf` gives the glyphs by which a text is written: control
characters that have no short escape as units, everything else as itself.  The two are inverse on
every text.
-/

namespace TraceFold.Json

/-- A unit that must be followed by another one. -/
def isHighSurrogate (u : UInt16) : Bool := 0xD800 ≤ u && u ≤ 0xDBFF

/-- A unit that must follow another one. -/
def isLowSurrogate (u : UInt16) : Bool := 0xDC00 ≤ u && u ≤ 0xDFFF

/-- The character that two surrogates stand for. -/
def pairChar (high low : UInt16) : Char :=
  Char.ofNat (0x10000 + (high.toNat - 0xD800) * 0x400 + (low.toNat - 0xDC00))

/-- The characters of a string, in the order of its glyphs; `before` holds those so far, last
first. -/
def charsOf (e : Ending) : List Char → List Glyph → Except Fault (List Char)
  | before, [] => match e with
    | .closed => .ok before.reverse
    | .cut f => .error f
  | before, .char c :: gs => charsOf e (c :: before) gs
  | before, .unit u :: gs =>
    if isHighSurrogate u then match gs with
      | .unit v :: gs' =>
        if isLowSurrogate v then charsOf e (pairChar u v :: before) gs' else .error .malformed
      | .char _ :: _ => .error .malformed
      | [] => match e with
        | .closed => .error .malformed
        | .cut f => .error f
    else if isLowSurrogate u then .error .malformed
    else charsOf e (Char.ofNat u.toNat :: before) gs

/-- The text of a string, or its first fault. -/
def textOf (gs : List Glyph) (e : Ending) : Except Fault String :=
  (charsOf e [] gs).map String.ofList

/-- The short escape of a character that has one; the solidus is written as itself. -/
def shortForm? : Char → Option Char
  | '"' => some '"'
  | '\\' => some '\\'
  | '\x08' => some 'b'
  | '\x0c' => some 'f'
  | '\n' => some 'n'
  | '\r' => some 'r'
  | '\t' => some 't'
  | _ => none

/-- The glyph by which a character is written. -/
def glyphOf (c : Char) : Glyph :=
  if c.toNat < 0x20 ∧ shortForm? c = none then .unit (UInt16.ofNat c.toNat) else .char c

/-- The glyphs by which a text is written. -/
def glyphsOf (text : String) : List Glyph :=
  text.toList.map glyphOf

end TraceFold.Json

/-!
# Letter case

Spellings are recognised without regard to case by comparing a folded text with fixed ASCII words.
Only folds that reach an ASCII letter can make such a comparison succeed, so the tables list exactly
the characters outside ASCII whose lower-case or upper-case form holds an ASCII letter; every other
character outside ASCII stands for itself, and no ASCII word contains it.
-/

namespace SnapshotAnalytics.Text

/-- The characters outside ASCII whose lower-case form is not free of ASCII letters. -/
def lowerExceptions : List (Char × List Char) :=
  [('\u0130', ['i', '\u0307']), ('\u212a', ['k'])]

/-- The characters outside ASCII whose upper-case form is not free of ASCII letters. -/
def upperExceptions : List (Char × List Char) :=
  [('\u00df', ['S', 'S']), ('\u0131', ['I']), ('\u0149', ['\u02bc', 'N']), ('\u017f', ['S']),
    ('\u01f0', ['J', '\u030c']), ('\u1e96', ['H', '\u0331']), ('\u1e97', ['T', '\u0308']),
    ('\u1e98', ['W', '\u030a']), ('\u1e99', ['Y', '\u030a']), ('\u1e9a', ['A', '\u02be']),
    ('\ufb00', ['F', 'F']), ('\ufb01', ['F', 'I']), ('\ufb02', ['F', 'L']),
    ('\ufb03', ['F', 'F', 'I']), ('\ufb04', ['F', 'F', 'L']), ('\ufb05', ['S', 'T']),
    ('\ufb06', ['S', 'T'])]

/-- The lower-case form of a character, as far as ASCII letters are concerned. -/
def lowerChar (c : Char) : List Char :=
  (lowerExceptions.lookup c).getD [c.toLower]

/-- The upper-case form of a character, as far as ASCII letters are concerned. -/
def upperChar (c : Char) : List Char :=
  (upperExceptions.lookup c).getD [c.toUpper]

/-- The lower-case form of a text, as far as ASCII letters are concerned. -/
def lower (s : List Char) : List Char :=
  s.flatMap lowerChar

/-- The upper-case form of a text, as far as ASCII letters are concerned. -/
def upper (s : List Char) : List Char :=
  s.flatMap upperChar

end SnapshotAnalytics.Text

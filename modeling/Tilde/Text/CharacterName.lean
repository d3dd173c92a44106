import Tilde.Text.Basic

/-!
# Names of characters that do not print

The Unicode (version 14) names of the unprintable characters from the no-break space on. Control,
private and unassigned characters have no name.
-/

namespace Tilde.Text

/-- Code and name of each unprintable character that has a name. -/
def unprintableNames : List (Nat × String) := [
  (0xA0, "NO-BREAK SPACE"), (0xAD, "SOFT HYPHEN"), (0x600, "ARABIC NUMBER SIGN"),
  (0x601, "ARABIC SIGN SANAH"), (0x602, "ARABIC FOOTNOTE MARKER"), (0x603, "ARABIC SIGN SAFHA"),
  (0x604, "ARABIC SIGN SAMVAT"), (0x605, "ARABIC NUMBER MARK ABOVE"),
  (0x61C, "ARABIC LETTER MARK"), (0x6DD, "ARABIC END OF AYAH"),
  (0x70F, "SYRIAC ABBREVIATION MARK"), (0x890, "ARABIC POUND MARK ABOVE"),
  (0x891, "ARABIC PIASTRE MARK ABOVE"), (0x8E2, "ARABIC DISPUTED END OF AYAH"),
  (0x1680, "OGHAM SPACE MARK"), (0x180E, "MONGOLIAN VOWEL SEPARATOR"), (0x2000, "EN QUAD"),
  (0x2001, "EM QUAD"), (0x2002, "EN SPACE"), (0x2003, "EM SPACE"), (0x2004, "THREE-PER-EM SPACE"),
  (0x2005, "FOUR-PER-EM SPACE"), (0x2006, "SIX-PER-EM SPACE"), (0x2007, "FIGURE SPACE"),
  (0x2008, "PUNCTUATION SPACE"), (0x2009, "THIN SPACE"), (0x200A, "HAIR SPACE"),
  (0x200B, "ZERO WIDTH SPACE"), (0x200C, "ZERO WIDTH NON-JOINER"), (0x200D, "ZERO WIDTH JOINER"),
  (0x200E, "LEFT-TO-RIGHT MARK"), (0x200F, "RIGHT-TO-LEFT MARK"), (0x2028, "LINE SEPARATOR"),
  (0x2029, "PARAGRAPH SEPARATOR"), (0x202A, "LEFT-TO-RIGHT EMBEDDING"),
  (0x202B, "RIGHT-TO-LEFT EMBEDDING"), (0x202C, "POP DIRECTIONAL FORMATTING"),
  (0x202D, "LEFT-TO-RIGHT OVERRIDE"), (0x202E, "RIGHT-TO-LEFT OVERRIDE"),
  (0x202F, "NARROW NO-BREAK SPACE"), (0x205F, "MEDIUM MATHEMATICAL SPACE"),
  (0x2060, "WORD JOINER"), (0x2061, "FUNCTION APPLICATION"), (0x2062, "INVISIBLE TIMES"),
  (0x2063, "INVISIBLE SEPARATOR"), (0x2064, "INVISIBLE PLUS"), (0x2066, "LEFT-TO-RIGHT ISOLATE"),
  (0x2067, "RIGHT-TO-LEFT ISOLATE"), (0x2068, "FIRST STRONG ISOLATE"),
  (0x2069, "POP DIRECTIONAL ISOLATE"), (0x206A, "INHIBIT SYMMETRIC SWAPPING"),
  (0x206B, "ACTIVATE SYMMETRIC SWAPPING"), (0x206C, "INHIBIT ARABIC FORM SHAPING"),
  (0x206D, "ACTIVATE ARABIC FORM SHAPING"), (0x206E, "NATIONAL DIGIT SHAPES"),
  (0x206F, "NOMINAL DIGIT SHAPES"), (0x3000, "IDEOGRAPHIC SPACE"),
  (0xFEFF, "ZERO WIDTH NO-BREAK SPACE"), (0xFFF9, "INTERLINEAR ANNOTATION ANCHOR"),
  (0xFFFA, "INTERLINEAR ANNOTATION SEPARATOR"), (0xFFFB, "INTERLINEAR ANNOTATION TERMINATOR"),
  (0x110BD, "KAITHI NUMBER SIGN"), (0x110CD, "KAITHI NUMBER SIGN ABOVE"),
  (0x13430, "EGYPTIAN HIEROGLYPH VERTICAL JOINER"),
  (0x13431, "EGYPTIAN HIEROGLYPH HORIZONTAL JOINER"),
  (0x13432, "EGYPTIAN HIEROGLYPH INSERT AT TOP START"),
  (0x13433, "EGYPTIAN HIEROGLYPH INSERT AT BOTTOM START"),
  (0x13434, "EGYPTIAN HIEROGLYPH INSERT AT TOP END"),
  (0x13435, "EGYPTIAN HIEROGLYPH INSERT AT BOTTOM END"),
  (0x13436, "EGYPTIAN HIEROGLYPH OVERLAY MIDDLE"), (0x13437, "EGYPTIAN HIEROGLYPH BEGIN SEGMENT"),
  (0x13438, "EGYPTIAN HIEROGLYPH END SEGMENT"), (0x1BCA0, "SHORTHAND FORMAT LETTER OVERLAP"),
  (0x1BCA1, "SHORTHAND FORMAT CONTINUING OVERLAP"), (0x1BCA2, "SHORTHAND FORMAT DOWN STEP"),
  (0x1BCA3, "SHORTHAND FORMAT UP STEP"), (0x1D173, "MUSICAL SYMBOL BEGIN BEAM"),
  (0x1D174, "MUSICAL SYMBOL END BEAM"), (0x1D175, "MUSICAL SYMBOL BEGIN TIE"),
  (0x1D176, "MUSICAL SYMBOL END TIE"), (0x1D177, "MUSICAL SYMBOL BEGIN SLUR"),
  (0x1D178, "MUSICAL SYMBOL END SLUR"), (0x1D179, "MUSICAL SYMBOL BEGIN PHRASE"),
  (0x1D17A, "MUSICAL SYMBOL END PHRASE"), (0xE0001, "LANGUAGE TAG"), (0xE0020, "TAG SPACE"),
  (0xE0021, "TAG EXCLAMATION MARK"), (0xE0022, "TAG QUOTATION MARK"), (0xE0023, "TAG NUMBER SIGN"),
  (0xE0024, "TAG DOLLAR SIGN"), (0xE0025, "TAG PERCENT SIGN"), (0xE0026, "TAG AMPERSAND"),
  (0xE0027, "TAG APOSTROPHE"), (0xE0028, "TAG LEFT PARENTHESIS"),
  (0xE0029, "TAG RIGHT PARENTHESIS"), (0xE002A, "TAG ASTERISK"), (0xE002B, "TAG PLUS SIGN"),
  (0xE002C, "TAG COMMA"), (0xE002D, "TAG HYPHEN-MINUS"), (0xE002E, "TAG FULL STOP"),
  (0xE002F, "TAG SOLIDUS"), (0xE0030, "TAG DIGIT ZERO"), (0xE0031, "TAG DIGIT ONE"),
  (0xE0032, "TAG DIGIT TWO"), (0xE0033, "TAG DIGIT THREE"), (0xE0034, "TAG DIGIT FOUR"),
  (0xE0035, "TAG DIGIT FIVE"), (0xE0036, "TAG DIGIT SIX"), (0xE0037, "TAG DIGIT SEVEN"),
  (0xE0038, "TAG DIGIT EIGHT"), (0xE0039, "TAG DIGIT NINE"), (0xE003A, "TAG COLON"),
  (0xE003B, "TAG SEMICOLON"), (0xE003C, "TAG LESS-THAN SIGN"), (0xE003D, "TAG EQUALS SIGN"),
  (0xE003E, "TAG GREATER-THAN SIGN"), (0xE003F, "TAG QUESTION MARK"),
  (0xE0040, "TAG COMMERCIAL AT"), (0xE0041, "TAG LATIN CAPITAL LETTER A"),
  (0xE0042, "TAG LATIN CAPITAL LETTER B"), (0xE0043, "TAG LATIN CAPITAL LETTER C"),
  (0xE0044, "TAG LATIN CAPITAL LETTER D"), (0xE0045, "TAG LATIN CAPITAL LETTER E"),
  (0xE0046, "TAG LATIN CAPITAL LETTER F"), (0xE0047, "TAG LATIN CAPITAL LETTER G"),
  (0xE0048, "TAG LATIN CAPITAL LETTER H"), (0xE0049, "TAG LATIN CAPITAL LETTER I"),
  (0xE004A, "TAG LATIN CAPITAL LETTER J"), (0xE004B, "TAG LATIN CAPITAL LETTER K"),
  (0xE004C, "TAG LATIN CAPITAL LETTER L"), (0xE004D, "TAG LATIN CAPITAL LETTER M"),
  (0xE004E, "TAG LATIN CAPITAL LETTER N"), (0xE004F, "TAG LATIN CAPITAL LETTER O"),
  (0xE0050, "TAG LATIN CAPITAL LETTER P"), (0xE0051, "TAG LATIN CAPITAL LETTER Q"),
  (0xE0052, "TAG LATIN CAPITAL LETTER R"), (0xE0053, "TAG LATIN CAPITAL LETTER S"),
  (0xE0054, "TAG LATIN CAPITAL LETTER T"), (0xE0055, "TAG LATIN CAPITAL LETTER U"),
  (0xE0056, "TAG LATIN CAPITAL LETTER V"), (0xE0057, "TAG LATIN CAPITAL LETTER W"),
  (0xE0058, "TAG LATIN CAPITAL LETTER X"), (0xE0059, "TAG LATIN CAPITAL LETTER Y"),
  (0xE005A, "TAG LATIN CAPITAL LETTER Z"), (0xE005B, "TAG LEFT SQUARE BRACKET"),
  (0xE005C, "TAG REVERSE SOLIDUS"), (0xE005D, "TAG RIGHT SQUARE BRACKET"),
  (0xE005E, "TAG CIRCUMFLEX ACCENT"), (0xE005F, "TAG LOW LINE"), (0xE0060, "TAG GRAVE ACCENT"),
  (0xE0061, "TAG LATIN SMALL LETTER A"), (0xE0062, "TAG LATIN SMALL LETTER B"),
  (0xE0063, "TAG LATIN SMALL LETTER C"), (0xE0064, "TAG LATIN SMALL LETTER D"),
  (0xE0065, "TAG LATIN SMALL LETTER E"), (0xE0066, "TAG LATIN SMALL LETTER F"),
  (0xE0067, "TAG LATIN SMALL LETTER G"), (0xE0068, "TAG LATIN SMALL LETTER H"),
  (0xE0069, "TAG LATIN SMALL LETTER I"), (0xE006A, "TAG LATIN SMALL LETTER J"),
  (0xE006B, "TAG LATIN SMALL LETTER K"), (0xE006C, "TAG LATIN SMALL LETTER L"),
  (0xE006D, "TAG LATIN SMALL LETTER M"), (0xE006E, "TAG LATIN SMALL LETTER N"),
  (0xE006F, "TAG LATIN SMALL LETTER O"), (0xE0070, "TAG LATIN SMALL LETTER P"),
  (0xE0071, "TAG LATIN SMALL LETTER Q"), (0xE0072, "TAG LATIN SMALL LETTER R"),
  (0xE0073, "TAG LATIN SMALL LETTER S"), (0xE0074, "TAG LATIN SMALL LETTER T"),
  (0xE0075, "TAG LATIN SMALL LETTER U"), (0xE0076, "TAG LATIN SMALL LETTER V"),
  (0xE0077, "TAG LATIN SMALL LETTER W"), (0xE0078, "TAG LATIN SMALL LETTER X"),
  (0xE0079, "TAG LATIN SMALL LETTER Y"), (0xE007A, "TAG LATIN SMALL LETTER Z"),
  (0xE007B, "TAG LEFT CURLY BRACKET"), (0xE007C, "TAG VERTICAL LINE"),
  (0xE007D, "TAG RIGHT CURLY BRACKET"), (0xE007E, "TAG TILDE"), (0xE007F, "CANCEL TAG")]

/-- The name of an unprintable character. -/
def unprintableName? (c : Char) : Option Text :=
  (unprintableNames.find? (·.1 == c.toNat)).map (·.2.toList)

end Tilde.Text

/-!
# Text

Everything here that scans or prints does so one code point at a time, front to back, so a text is a
list of characters. `String` appears where a text is finished: names, messages, lines of output.
-/

namespace Reckoner

/-- A text as its sequence of code points; lengths and cuts count these. -/
abbrev Text := List Char

/-- Items one after another, as the texts of lists and of calls have them. -/
def Text.commaSeparated (items : List Text) : Text := List.intercalate ", ".toList items

end Reckoner

/-!
# Columns

Listings and trace records line their fields up in columns. A column counts characters, and a text
wider than its column is kept whole.
-/

namespace Tandem

/-- `text` filled up with blanks on the right to `width` characters. -/
def column (width : Nat) (text : String) : String :=
  text ++ String.ofList (List.replicate (width - text.length) ' ')

end Tandem

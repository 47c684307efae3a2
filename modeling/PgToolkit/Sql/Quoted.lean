/-!
# Quoted tokens

SQL writes a quoted token between two equal quotes and doubles every quote inside it. String
literals use `'`, quoted identifiers use `"`.
-/

namespace PgToolkit.Sql

/-- A text in which every `quote` is written twice and all else once. -/
def doubled (quote : Char) (text : List Char) : List Char :=
  text.flatMap fun c => if c = quote then [quote, quote] else [c]

@[simp] theorem doubled_nil (quote : Char) : doubled quote [] = [] := rfl

@[simp] theorem doubled_append (quote : Char) (s t : List Char) :
    doubled quote (s ++ t) = doubled quote s ++ doubled quote t := by
  simp [doubled]

/-- The token that stands for a text: the text between two quotes, the quotes inside doubled. -/
def quoted (quote : Char) (text : String) : String :=
  String.ofList (quote :: (doubled quote text.toList ++ [quote]))

def literal (text : String) : String :=
  quoted '\'' text

def quotedName (text : String) : String :=
  quoted '"' text

end PgToolkit.Sql

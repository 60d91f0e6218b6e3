import BlogSite.Theme.Basic

/-!
The themes there are. A name that no theme has stands for the default theme.
-/

namespace BlogSite.Theme

/-- The theme of the home page and of blogs that name none. -/
def default : Theme :=
  { name := "word-retro", stem := "word", layout := .document, heading := "🏷️ タグで絞り込み" }

def registry : List Theme :=
  [default,
   { name := "retro-cosmic", stem := "cosmic", heading := "🏷️ タグで絞り込み",
     afterPanel := "\n<div class=\"retro-separator\"></div>" },
   { name := "gym-log", stem := "gym", allLabel := "ALL", heading := "◆ FILTER BY TAG" },
   { name := "love-column", stem := "love", allLabel := "すべて ♥", heading := "♥ タグで絞り込み",
     centered := true },
   { name := "izakaya", stem := "izakaya", heading := "〔 種類で絞り込む 〕" },
   { name := "onsen-cosmos", stem := "onsen", allLabel := "すべて ✦", dateIcon := "🌙",
     centered := true },
   { name := "comedy-zine", stem := "zine", allLabel := "ALL", heading := "◆ FILTER BY TAG",
     dateIcon := "" },
   { name := "academy-log", stem := "academy", allLabel := "ALL", heading := "◆ FILTER BY TAG" },
   { name := "terminal", stem := "term", layout := .terminal, allLabel := "*" },
   { name := "kawase-blog", stem := "kawase", layout := .stacked },
   { name := "sake-modern", stem := "sake", layout := .stacked }]

/-- The theme of a name, or the default theme. -/
def named (name : String) : Theme := (registry.find? (·.name = name)).getD default

/-- The theme that a value names. What cannot be a key names none and is refused. -/
def ofValue? (v : Value) : Option Theme :=
  if !v.truthy then some default
  else if !v.isKey then none
  else match v with
    | .str name => some (named name)
    | _ => some default

end BlogSite.Theme

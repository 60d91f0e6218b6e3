import BlogSite.Html.Fragment
import BlogSite.Post

/-!
Themes. Every theme shows the same data in four fragments: cards of posts, a panel of tag buttons,
a card that leads to a neighbour, and tag badges. Themes differ in class names, labels and layout.
-/

namespace BlogSite

open BlogSite.Html

/-- How a theme lays out its fragments. -/
inductive Layout where
  /-- Title and date on one row, then excerpt, author and tags. -/
  | cards
  /-- The date above the title, author and tags in a footer. -/
  | stacked
  /-- One row of a terminal for each post. -/
  | terminal
  /-- The pages of a word processor, which the home page shares. -/
  | document
deriving DecidableEq

structure Theme where
  name : String
  stem : String
  layout : Layout := .cards
  allLabel : String := "すべて"
  heading : String := "✦ タグで絞り込み"
  dateIcon : String := "📅"
  centered : Bool := false
  afterPanel : String := ""
deriving DecidableEq

namespace Theme

/-- What a button shows all posts by, instead of a tag. -/
def allTags : String := "__all__"

def noPosts : Fragment := [markup "<p style=\"color:#999;padding:20px 0\">記事がまだありません</p>"]

def emptyCard : Fragment := [markup "<div></div>"]

def tagClass (t : Theme) : String := t.stem ++ "-tag"

def activeClass (t : Theme) : String := t.tagClass ++ "-active"

/-- A class name of the theme. -/
def cls (t : Theme) (part : String) : String := t.stem ++ "-" ++ part

/-- A date with the icon of the theme. -/
def dated (t : Theme) (date : String) : Fragment :=
  if t.dateIcon = "" then [text date] else [markup (t.dateIcon ++ " "), text date]

/-- The opening tag of the card of a post. -/
def cardOpen (p : Post) (cardClass : String) : Fragment :=
  [markup "<a href=\"posts/", text p.slug, markup (".html\" class=\"" ++ cardClass ++
    "\" data-post-tags=\""), text (",".intercalate p.tags), markup "\">"]

def tagBadge (t : Theme) (tag : String) : Fragment :=
  [markup ("<span class=\"" ++ t.tagClass ++ "\">#"), text tag, markup "</span>"]

def tagBadges (t : Theme) (tags : List String) : Fragment := tags.flatMap t.tagBadge

def cardOfCards (t : Theme) (p : Post) : Fragment :=
  cardOpen p (t.cls "post-card") ++
  [markup ("\n  <div style=\"display:flex;justify-content:space-between;align-items:start;" ++
      "margin-bottom:6px\">\n    <div class=\"" ++ t.cls "card-title" ++ "\">"),
    value p.title,
    markup ("</div>\n    <span class=\"" ++ t.cls "card-date" ++ "\">")] ++
  t.dated p.date ++
  [markup ("</span>\n  </div>\n  <p class=\"" ++ t.cls "card-excerpt" ++ "\">"),
    value p.excerpt,
    markup ("</p>\n  <div style=\"display:flex;justify-content:space-between;" ++
      "align-items:center;margin-top:8px\">\n    <span class=\"" ++ t.cls "card-meta" ++ "\">✍️ "),
    value p.author,
    markup "</span>\n    <div>"] ++
  t.tagBadges p.tags ++
  [markup "</div>\n  </div>\n</a>"]

def stackedCard (t : Theme) (p : Post) : Fragment :=
  cardOpen p (t.cls "post-card") ++
  [markup ("\n  <div class=\"" ++ t.cls "card-date" ++ "\">")] ++
  t.dated p.date ++
  [markup ("</div>\n  <div class=\"" ++ t.cls "card-title" ++ "\">"),
    value p.title,
    markup ("</div>\n  <p class=\"" ++ t.cls "card-excerpt" ++ "\">"),
    value p.excerpt,
    markup ("</p>\n  <div class=\"" ++ t.cls "card-footer" ++ "\">\n    <span class=\"" ++
      t.cls "card-meta" ++ "\">✍️ "),
    value p.author,
    markup ("</span>\n    <div class=\"" ++ t.cls "card-tags" ++ "\">")] ++
  t.tagBadges p.tags ++
  [markup "</div>\n  </div>\n</a>"]

def terminalRow (t : Theme) (p : Post) : Fragment :=
  cardOpen p (t.cls "post-entry") ++
  [markup ("\n  <span class=\"" ++ t.cls "post-date" ++ "\">"),
    text p.date,
    markup ("</span>\n  <span class=\"" ++ t.cls "post-author" ++ "\">"),
    value p.author,
    markup ("</span>\n  <span class=\"" ++ t.cls "post-title" ++ "\">"),
    value p.title,
    markup ("</span>\n  <div class=\"" ++ t.cls "post-excerpt" ++ "\">"),
    value p.excerpt,
    markup ("</div>\n  <div class=\"" ++ t.cls "post-tags" ++ "\">")] ++
  t.tagBadges p.tags ++
  [markup "</div>\n</a>"]

def documentEntry (t : Theme) (p : Post) : Fragment :=
  cardOpen p "word-blog-entry" ++
  [markup ("\n  <div style=\"display:flex;justify-content:space-between;align-items:start;" ++
      "margin-bottom:6px\">\n    <div class=\"word-blog-entry-title\">"),
    value p.title,
    markup ("</div>\n    <span style=\"font-size:0.85rem;color:#666;white-space:nowrap;" ++
      "margin-left:12px\">")] ++
  t.dated p.date ++
  [markup ("</span>\n  </div>\n  <p class=\"word-blog-excerpt\" " ++
      "style=\"margin-bottom:8px\">"),
    value p.excerpt,
    markup ("</p>\n  <div style=\"display:flex;justify-content:space-between;" ++
      "align-items:center;flex-wrap:wrap;gap:8px\">\n" ++
      "    <span style=\"font-size:0.85rem;color:#666\">✍️ "),
    value p.author,
    markup "</span>\n    <div>"] ++
  t.tagBadges p.tags ++
  [markup "</div>\n  </div>\n</a>"]

/-- The card of a post. -/
def card (t : Theme) (p : Post) : Fragment :=
  match t.layout with
  | .cards => t.cardOfCards p
  | .stacked => t.stackedCard p
  | .terminal => t.terminalRow p
  | .document => t.documentEntry p

def postList (t : Theme) (posts : List Post) : Fragment :=
  if posts.isEmpty then noPosts else Fragment.join "\n" (posts.map t.card)

def allButton (t : Theme) : Fragment :=
  [markup ("<button data-tag-btn=\"" ++ allTags ++ "\" class=\"" ++ t.tagClass ++ " " ++
      t.activeClass ++ "\">"), text t.allLabel, markup "</button>"]

def tagButton (t : Theme) (tag : String) : Fragment :=
  [markup "<button data-tag-btn=\"", text tag, markup ("\" class=\"" ++ t.tagClass ++ "\">#"),
    text tag, markup "</button>"]

def buttons (t : Theme) (tags : List String) : Fragment := t.allButton ++ tags.flatMap t.tagButton

/-- The panel around the buttons: what stands before and after them. -/
def panelEnds (t : Theme) : String × String :=
  match t.layout with
  | .cards =>
    ("<div class=\"" ++ t.cls "tag-filter" ++ "\">\n  <div class=\"" ++
        t.cls "tag-filter-heading" ++ "\">" ++ t.heading ++
        "</div>\n  <div style=\"display:flex;gap:6px;flex-wrap:wrap" ++
        (if t.centered then ";justify-content:center" else "") ++ "\">",
      "</div>\n</div>" ++ t.afterPanel)
  | .stacked =>
    ("<div class=\"" ++ t.cls "tag-filter" ++ "\">\n  <div class=\"" ++
        t.cls "tag-filter-heading" ++ "\">" ++ t.heading ++ "</div>\n  <div class=\"" ++
        t.cls "tag-filter-wrap" ++ "\">",
      "</div>\n</div>")
  | .terminal =>
    ("<div class=\"" ++ t.cls "tag-filter" ++ " " ++ t.cls "block" ++
        "\" style=\"padding:10px\">\n  <span class=\"" ++ t.cls "prompt-mini" ++
        "\">$</span> grep --tag:\n" ++
        "  <div style=\"display:flex;gap:6px;flex-wrap:wrap;margin-top:8px\">",
      "</div>\n</div>")
  | .document =>
    ("<div class=\"word-section\">\n  <div class=\"word-section-heading\">" ++ t.heading ++
        "</div>\n  <div style=\"display:flex;gap:6px;flex-wrap:wrap\">",
      "</div>\n</div>\n<div class=\"word-section-break\"></div>")

/-- The panel of tag buttons; posts without tags have none. -/
def tagFilter (t : Theme) (posts : List Post) : Fragment :=
  let tags := uniqueTags posts
  if tags.isEmpty then []
  else [markup t.panelEnds.1] ++ t.buttons tags ++ [markup t.panelEnds.2]

/-- The card that leads to a neighbouring post, empty where there is none. -/
def navCard (t : Theme) (post : Option Post) (label : Value) : Fragment :=
  match post with
  | none => emptyCard
  | some p =>
    match t.layout with
    | .document =>
      [markup "<a href=\"", text p.slug,
        markup (".html\" class=\"word-blog-card\" style=\"padding:12px\">\n" ++
          "  <div style=\"font-size:0.8rem;color:#666;margin-bottom:6px\">"),
        value label,
        markup ("</div>\n" ++
          "  <div class=\"word-bold word-text-blue\" style=\"font-size:0.9rem\">"),
        value p.title,
        markup "</div>\n  <div style=\"font-size:0.8rem;color:#666;margin-top:4px\">",
        text p.date, markup "</div>\n</a>"]
    | _ =>
      [markup "<a href=\"", text p.slug,
        markup (".html\" class=\"" ++ t.cls "nav-card" ++ "\">\n  <div class=\"" ++
          t.cls "nav-label" ++ "\">"),
        value label,
        markup ("</div>\n  <div class=\"" ++ t.cls "nav-title" ++ "\">"),
        value p.title,
        markup ("</div>\n  <div class=\"" ++ t.cls "nav-date" ++ "\">"),
        text p.date, markup "</div>\n</a>"]

end Theme

end BlogSite

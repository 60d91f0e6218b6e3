import BlogSite.Proofs.BareReading
import BlogSite.Proofs.EscapedTexts
import BlogSite.Proofs.LinkReading

/-!
What a reader finds on the cards of posts. Whatever the names of its classes are, a theme shows the same tags with
the same texts in each of its cards, and every text of a post has its own place among them.
-/

namespace BlogSite

open Html Html.Fragment

namespace Html.Fragment

/-! ### Pages made of names and texts -/

/-- The text before the first tag, as it is on the page. -/
def leadAs (ts : List (Token String)) : String := filled (pageOf ts).lead

variable (s : String) (us : List (Token String))

@[simp] theorem leadAs_tagged : leadAs (tagged s ++ us) = "" := rfl

@[simp] theorem seenAs_tagged : seenAs (tagged s ++ us) = (s,leadAs us) :: seenAs us := by
  simp [seenAs,leadAs,tagged,pageOf,Page.seen,Tag.bare]

theorem pageOf_said : pageOf (said s ++ us) = ⟨plain s ++ (pageOf us).lead,(pageOf us).tags⟩ := by
  rw [said]
  induction plain s with
  | nil => rfl
  | cons x xs ih => rw [List.map_cons,List.cons_append,pageOf,ih,List.cons_append]

@[simp] theorem leadAs_said : leadAs (said s ++ us) = s ++ leadAs us := by
  rw [leadAs,pageOf_said,filled_append,filled_plain,leadAs]

@[simp] theorem seenAs_said : seenAs (said s ++ us) = seenAs us := by
  rw [seenAs,pageOf_said]
  rfl

@[simp] theorem leadAs_told : leadAs (told s ++ us) = s ++ leadAs us := by
  change filled ([.hole s] ++ (pageOf us).lead) = _
  rw [filled_append,filled_hole,leadAs]

@[simp] theorem seenAs_told : seenAs (told s ++ us) = seenAs us := rfl

end Html.Fragment

namespace Theme

variable {t : Theme}

/-! ### What is found on a card -/

/-- What stands before a date. -/
def beforeDate (t : Theme) : String := if t.dateIcon = "" then "" else t.dateIcon ++ " "

def datedTokens (t : Theme) (date : String) : List (Token String) := said t.beforeDate ++ told date

def badgeTokens (tag : String) : List (Token String) :=
  (tagged "span" ++ said "#") ++ (told tag ++ tagged "/span")

/-- What is found on the card of a post, in the order of the layout. -/
def cardTokens (t : Theme) (p : Post) : List (Token String) :=
  match t.layout with
  | .cards | .document =>
    tagged "a" ++
      ((said "\n  " ++ tagged "div" ++ said "\n    " ++ tagged "div") ++
        (told p.title.shown ++ (tagged "/div" ++ said "\n    " ++ tagged "span"))) ++
      t.datedTokens p.date ++
      ((tagged "/span" ++ said "\n  " ++ tagged "/div" ++ said "\n  " ++ tagged "p") ++
        (told p.excerpt.shown ++
          (((tagged "/p" ++ said "\n  " ++ tagged "div" ++ said "\n    ") ++ (tagged "span" ++ said "✍️ ")) ++
            (told p.author.shown ++ (tagged "/span" ++ said "\n    " ++ tagged "div"))))) ++
      p.tags.flatMap badgeTokens ++
      (tagged "/div" ++ said "\n  " ++ tagged "/div" ++ said "\n" ++ tagged "/a")
  | .stacked =>
    tagged "a" ++ (said "\n  " ++ tagged "div") ++ t.datedTokens p.date ++
      ((tagged "/div" ++ said "\n  " ++ tagged "div") ++
        (told p.title.shown ++ ((tagged "/div" ++ said "\n  " ++ tagged "p") ++
          (told p.excerpt.shown ++
            (((tagged "/p" ++ said "\n  ") ++ (tagged "div" ++ said "\n    ") ++
                (tagged "span" ++ said "✍️ ")) ++
              (told p.author.shown ++ (tagged "/span" ++ said "\n    " ++ tagged "div"))))))) ++
      p.tags.flatMap badgeTokens ++
      (tagged "/div" ++ said "\n  " ++ tagged "/div" ++ said "\n" ++ tagged "/a")
  | .terminal =>
    tagged "a" ++
      ((said "\n  " ++ tagged "span") ++ (told p.date ++
        ((tagged "/span" ++ said "\n  " ++ tagged "span") ++ (told p.author.shown ++
          ((tagged "/span" ++ said "\n  " ++ tagged "span") ++ (told p.title.shown ++
            ((tagged "/span" ++ said "\n  " ++ tagged "div") ++ (told p.excerpt.shown ++
              (tagged "/div" ++ said "\n  " ++ tagged "div"))))))))) ++
      p.tags.flatMap badgeTokens ++ (tagged "/div" ++ said "\n" ++ tagged "/a")

/-! ### What is seen on a card -/

def badgesSeen (tags : List String) : List (String × String) :=
  tags.flatMap fun tag => [("span","#" ++ tag),("/span","")]

/-- What is seen on the card of a post after its link and before its end. -/
def cardSeen (t : Theme) (p : Post) : List (String × String) :=
  match t.layout with
  | .cards | .document =>
    [("div","\n    "),("div",p.title.shown),("/div","\n    "),("span",t.beforeDate ++ p.date),("/span","\n  "),
      ("/div","\n  "),("p",p.excerpt.shown),("/p","\n  "),("div","\n    "),("span","✍️ " ++ p.author.shown),
      ("/span","\n    "),("div","")] ++ badgesSeen p.tags ++ [("/div","\n  "),("/div","\n")]
  | .stacked =>
    [("div",t.beforeDate ++ p.date),("/div","\n  "),("div",p.title.shown),("/div","\n  "),("p",p.excerpt.shown),
      ("/p","\n  "),("div","\n    "),("span","✍️ " ++ p.author.shown),("/span","\n    "),("div","")] ++
      badgesSeen p.tags ++ [("/div","\n  "),("/div","\n")]
  | .terminal =>
    [("span",p.date),("/span","\n  "),("span",p.author.shown),("/span","\n  "),("span",p.title.shown),
      ("/span","\n  "),("div",p.excerpt.shown),("/div","\n  "),("div","")] ++
      badgesSeen p.tags ++ [("/div","\n")]

theorem leadAs_badges (tags : List String) (s : String) (us : List (Token String)) :
    leadAs (tags.flatMap badgeTokens ++ (tagged s ++ us)) = "" := by
  cases tags <;> rfl

theorem seenAs_badges (tags : List String) (s : String) (us : List (Token String)) :
    seenAs (tags.flatMap badgeTokens ++ (tagged s ++ us)) = badgesSeen tags ++ seenAs (tagged s ++ us) := by
  induction tags with
  | nil => rfl
  | cons tag tags ih =>
    rw [List.flatMap_cons,badgeTokens,badgesSeen,List.flatMap_cons,← badgesSeen]
    simp [ih,leadAs_badges]

theorem seenAs_cardTokens (p : Post) (us : List (Token String)) :
    seenAs (t.cardTokens p ++ us) = ("a","\n  ") :: (t.cardSeen p ++ ("/a",leadAs us) :: seenAs us) := by
  unfold cardTokens cardSeen datedTokens
  cases t.layout <;> simp [leadAs_badges,seenAs_badges]

/-! ### The markup of cards -/

/-- A class name of the theme in a tag, between what is fixed. -/
theorem IsPlain.classed (ht : t.IsPlain) {p q : Spot String} {ts us : List (Token String)} {l part r : List Char}
    (name : String) (h : p.find (l.map .char) = some (.inside name.toList,ts) ∧ '"' ∉ part ∧
      (Spot.inside name.toList).find (r.map .char) = some (q,us)) :
    Finds p [markup (String.ofList l ++ t.cls (String.ofList part) ++ String.ofList r)] q (ts ++ us) :=
  .classed (.lit h.1) (ht.cls (by simpa using h.2.1)) h.2.2

theorem finds_cardOpen {c : String} (hc : '"' ∉ c.toList) (p : Post) :
    Finds .content (cardOpen p c) .content (tagged "a") := by
  have hlink : Finds .content [markup "<a href=\"posts/"] (.inside "a".toList) [] := .lit (by decide)
  have hclass : Finds (.inside "a".toList) [markup (".html\" class=\"" ++ c ++ "\" data-post-tags=\"")]
      (.inside "a".toList) ([] ++ []) := .classed (n := "a".toList) (.lit (by decide)) hc (by decide)
  have hend : Finds (.inside "a".toList) [markup "\">"] .content (tagged "a") := .lit (by decide)
  exact .cons hlink (.cons (.textValue _) (.cons hclass (.cons (.textValue _) hend)))

theorem finds_dated (ht : t.IsPlain) (date : String) :
    Finds .content (t.dated date) .content (t.datedTokens date) := by
  have hicon : '<' ∉ (t.dateIcon ++ " ").toList := by simp [ht.dateIcon]
  unfold dated datedTokens beforeDate
  split
  · exact .text date
  · exact .cons (.content hicon) (.text date)

theorem finds_tagBadges (ht : t.IsPlain) (tags : List String) :
    Finds .content (t.tagBadges tags) .content (tags.flatMap badgeTokens) := by
  have hopen : Finds .content [markup ("<span class=\"" ++ t.tagClass ++ "\">#")] .content
      ([] ++ (tagged "span" ++ said "#")) :=
    .classed (n := "span".toList) (.lit (by decide)) ht.tagClass (by decide)
  have hbadge : ∀ tag, Finds .content (t.tagBadge tag) .content (badgeTokens tag) :=
    fun tag => .cons hopen (.cons (.text tag) (.lit (by decide)))
  induction tags with
  | nil => rfl
  | cons tag tags ih => exact (hbadge tag).append ih

set_option maxRecDepth 4000 in
theorem finds_cardOfCards (ht : t.IsPlain) (hlayout : t.layout = .cards) (p : Post) :
    Finds .content (t.cardOfCards p) .content (t.cardTokens p) := by
  unfold cardOfCards cardTokens
  rw [hlayout]
  refine (((((finds_cardOpen (ht.cls (by decide)) p).append ?_).append (finds_dated ht p.date)).append ?_).append
    (finds_tagBadges ht p.tags)).append ?_
  · exact .cons (.classed (n := "div".toList) (.lits (by decide)) (ht.cls (by decide)) (by decide))
      (.cons (.text _) (ht.classed "span" (by decide)))
  · refine .cons (ht.classed "p" (by decide)) (.cons (.text _) (.cons ?_ (.cons (.text _) (.lit (by decide)))))
    exact .classed (n := "span".toList) (.lits (by decide)) (ht.cls (by decide)) (by decide)
  · exact .lit (by decide)

set_option maxRecDepth 4000 in
theorem finds_stackedCard (ht : t.IsPlain) (hlayout : t.layout = .stacked) (p : Post) :
    Finds .content (t.stackedCard p) .content (t.cardTokens p) := by
  unfold stackedCard cardTokens
  rw [hlayout]
  refine (((((finds_cardOpen (ht.cls (by decide)) p).append ?_).append (finds_dated ht p.date)).append ?_).append
    (finds_tagBadges ht p.tags)).append ?_
  · exact ht.classed "div" (by decide)
  · refine .cons (ht.classed "div" (by decide)) (.cons (.text _) (.cons (ht.classed "p" (by decide))
      (.cons (.text _) (.cons ?_ (.cons (.text _) (ht.classed "div" (by decide)))))))
    exact .classed (n := "span".toList) (ht.classed "div" (by decide)) (ht.cls (by decide)) (by decide)
  · exact .lit (by decide)

set_option maxRecDepth 4000 in
theorem finds_terminalRow (ht : t.IsPlain) (hlayout : t.layout = .terminal) (p : Post) :
    Finds .content (t.terminalRow p) .content (t.cardTokens p) := by
  unfold terminalRow cardTokens
  rw [hlayout]
  refine (((finds_cardOpen (ht.cls (by decide)) p).append ?_).append (finds_tagBadges ht p.tags)).append ?_
  · exact .cons (ht.classed "span" (by decide)) (.cons (.text _) (.cons (ht.classed "span" (by decide))
      (.cons (.text _) (.cons (ht.classed "span" (by decide)) (.cons (.text _) (.cons (ht.classed "div" (by decide))
        (.cons (.text _) (ht.classed "div" (by decide)))))))))
  · exact .lit (by decide)

set_option maxRecDepth 4000 in
theorem finds_documentEntry (ht : t.IsPlain) (hlayout : t.layout = .document) (p : Post) :
    Finds .content (t.documentEntry p) .content (t.cardTokens p) := by
  unfold documentEntry cardTokens
  rw [hlayout]
  refine (((((finds_cardOpen (by decide) p).append ?_).append (finds_dated ht p.date)).append ?_).append
    (finds_tagBadges ht p.tags)).append ?_
  · exact .cons (.lits (by decide)) (.cons (.text _) (.lits (by decide)))
  · exact .cons (.lits (by decide)) (.cons (.text _) (.cons (.lits₃ (by decide)) (.cons (.text _)
      (.lit (by decide)))))
  · exact .lit (by decide)

/-- What is found on a card, whatever its layout is. -/
theorem finds_card (ht : t.IsPlain) (p : Post) : Finds .content (t.card p) .content (t.cardTokens p) := by
  cases h : t.layout with
  | cards => simpa only [card,h] using finds_cardOfCards ht h p
  | stacked => simpa only [card,h] using finds_stackedCard ht h p
  | terminal => simpa only [card,h] using finds_terminalRow ht h p
  | document => simpa only [card,h] using finds_documentEntry ht h p

end Theme

end BlogSite

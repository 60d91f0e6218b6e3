import BlogSite.Theme.Registry

/-!
Fragments of the home page: a table of the blogs and the latest posts of all of them.
-/

namespace BlogSite.Home

open BlogSite.Html

def newBadge : String := "<span class=\"word-new-badge\">NEW</span>"

/-- The row of a blog with the number of its posts; `isNew` marks a recent update. -/
def blogRow (b : Blog) (count : Value) (isNew : Bool) : Fragment :=
  [markup "<tr>\n  <td><a href=\"blogs/", text b.slug,
    markup "/index.html\" class=\"word-hyperlink\"><span class=\"word-emoji\">",
    value b.planet.emoji, markup "</span>", value b.title,
    markup ((if isNew then newBadge else "") ++ "</a></td>\n  <td>"),
    value b.desc, markup "</td>\n  <td>", value b.author,
    markup ("</td>\n  <td class=\"word-bold\">" ++ String.ofList count.display ++ "</td>\n</tr>")]

/-- The rows of the blogs in their order. A blog that is not counted has no posts. -/
def blogRows (blogs : List Blog) (counts : List (String × Value)) (recent : List String) :
    Fragment :=
  Fragment.join "\n" (blogs.map fun b =>
    blogRow b ((counts.lookup b.slug).getD (.int 0)) (recent.contains b.slug))

/-- The entry of a post among the latest ones. -/
def latestEntry (b : Blog) (p : Post) : Fragment :=
  let badges := Theme.default.tagBadges p.tags
  [markup "<a href=\"blogs/", text b.slug, markup "/posts/", text p.slug,
    markup (".html\" class=\"word-blog-entry\">\n  <div class=\"word-blog-entry-title\">\n" ++
      "    <span class=\"word-emoji\">"),
    value b.planet.emoji, markup "</span>", value p.title,
    markup "\n  </div>\n  <div class=\"word-blog-meta\">投稿者: ", value p.author,
    markup " | ブログ: ", value b.title, markup " | 日時: ", text p.date,
    markup "</div>\n  <p class=\"word-blog-excerpt\">", value p.excerpt, markup "</p>\n  "] ++
  (if badges.isEmpty then []
   else markup "<div style=\"margin-top:8px\">" :: badges ++ [markup "</div>"]) ++
  [markup "\n</a>"]

def latestPosts (entries : List (Blog × Post)) : Fragment :=
  Fragment.join "\n" (entries.map fun e => latestEntry e.1 e.2)

end BlogSite.Home

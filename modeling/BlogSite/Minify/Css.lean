import BlogSite.Minify.Css.Reading
import BlogSite.Minify.Css.Rules

/-!
Style sheets without what a browser does not need.
-/

namespace BlogSite.Minify.Css

/-- The short form of a style sheet. -/
def compress (text : String) : String :=
  let sheet := rules.foldl (fun g rule => rule g) (foldBlanks (read text.toList))
  String.ofList (Text.trim (chars sheet))

end BlogSite.Minify.Css

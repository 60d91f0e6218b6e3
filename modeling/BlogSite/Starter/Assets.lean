/-!
The assets of a new site: the style sheet of the default theme, and the script that shows the posts
with a tag when its button is pressed.
-/

namespace BlogSite.Starter

/-- The look of the default theme. -/
def styleSheet : String :=
  "body \x7b font-family: \"MS PGothic\", \"Hiragino Kaku Gothic ProN\", sans-serif;" ++
    " background: #c0c0c0; margin: 0; \x7d\n" ++
  ".word-page \x7b max-width: 860px; margin: 24px auto; background: #fff; border: 2px solid" ++
    " #808080; padding: 24px; \x7d\n" ++
  ".word-section-heading \x7b font-weight: bold; margin-bottom: 8px; \x7d\n" ++
  ".word-section-break \x7b border-top: 1px dashed #808080; margin: 16px 0; \x7d\n" ++
  ".word-blog-entry, .word-blog-card \x7b display: block; color: inherit; text-decoration:" ++
    " none; border: 1px solid #d0d0d0; padding: 12px; margin-bottom: 10px; \x7d\n" ++
  ".word-blog-entry:hover, .word-blog-card:hover \x7b background: #f0f4ff; \x7d\n" ++
  ".word-blog-entry-title \x7b font-weight: bold; color: #0000cc; \x7d\n" ++
  ".word-blog-meta \x7b font-size: 0.8rem; color: #666; \x7d\n" ++
  ".word-tag \x7b display: inline-block; font-size: 0.8rem; border: 1px solid #808080;" ++
    " background: #f5f5f5; padding: 1px 6px; margin-right: 4px; cursor: pointer; \x7d\n" ++
  ".word-tag-active \x7b background: #000080; color: #fff; \x7d\n" ++
  ".word-new-badge \x7b background: #ff0000; color: #fff; font-size: 0.7rem; padding: 1px" ++
    " 4px; margin-left: 6px; \x7d\n" ++
  ".word-bold \x7b font-weight: bold; \x7d\n" ++
  ".word-text-blue \x7b color: #0000cc; \x7d\n" ++
  ".word-nav \x7b display: grid; grid-template-columns: 1fr 1fr; gap: 12px; margin-top:" ++
    " 24px; \x7d\n" ++
  "table.word-table \x7b width: 100%; border-collapse: collapse; \x7d\n" ++
  "table.word-table td, table.word-table th \x7b border: 1px solid #808080; padding: 6px;" ++
    " \x7d\n"

/-- Shows the cards whose tags contain that of the pressed button. -/
def tagScript : String :=
  "// Tag filter shared by every theme.\n" ++
  "// Buttons carry data-tag-btn, post cards carry data-post-tags (comma-joined).\n" ++
  "// The active class is the button's first class plus \"-active\", e.g. word-tag-active." ++
    "\n" ++
  "\n" ++
  "(function () \x7b\n" ++
  "  document.addEventListener('DOMContentLoaded', function () \x7b\n" ++
  "    var tagButtons = document.querySelectorAll('[data-tag-btn]');\n" ++
  "    var postCards = document.querySelectorAll('[data-post-tags]');\n" ++
  "\n" ++
  "    if (!tagButtons.length) return;\n" ++
  "\n" ++
  "    function activeClass(btn) \x7b\n" ++
  "      return btn.classList.length ? btn.classList[0] + '-active' : 'tag-active';\n" ++
  "    \x7d\n" ++
  "\n" ++
  "    tagButtons.forEach(function (btn) \x7b\n" ++
  "      btn.addEventListener('click', function () \x7b\n" ++
  "        var selectedTag = btn.getAttribute('data-tag-btn');\n" ++
  "\n" ++
  "        tagButtons.forEach(function (b) \x7b\n" ++
  "          b.classList.remove(activeClass(b));\n" ++
  "        \x7d);\n" ++
  "        btn.classList.add(activeClass(btn));\n" ++
  "\n" ++
  "        postCards.forEach(function (card) \x7b\n" ++
  "          var tags = (card.getAttribute('data-post-tags') || '').split(',');\n" ++
  "          if (selectedTag === '__all__' || tags.indexOf(selectedTag) !== -1) \x7b\n" ++
  "            card.style.display = '';\n" ++
  "          \x7d else \x7b\n" ++
  "            card.style.display = 'none';\n" ++
  "          \x7d\n" ++
  "        \x7d);\n" ++
  "      \x7d);\n" ++
  "    \x7d);\n" ++
  "  \x7d);\n" ++
  "\x7d)();\n"

end BlogSite.Starter

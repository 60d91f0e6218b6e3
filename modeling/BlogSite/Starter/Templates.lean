/-!
The templates of a new site: the home page, the page for addresses that lead nowhere, and the two
pages of the default theme.
-/

namespace BlogSite.Starter

/-- The home page with the table of blogs and the latest posts. -/
def homeTemplate : String :=
  "<!DOCTYPE html>\n" ++
  "<html lang=\"ja\">\n" ++
  "<head>\n" ++
  "  <meta charset=\"UTF-8\">\n" ++
  "  <meta name=\"viewport\" content=\"width=device-width, initial-scale=1.0\">\n" ++
  "  <title>\x7b\x7bSITE_TITLE\x7d\x7d</title>\n" ++
  "  <link rel=\"stylesheet\" href=\"assets/css/word-retro.css\">\n" ++
  "</head>\n" ++
  "<body>\n" ++
  "  <div class=\"word-page\">\n" ++
  "    <h1>\x7b\x7bSITE_TITLE\x7d\x7d</h1>\n" ++
  "    <p class=\"word-blog-meta\">最終ビルド: \x7b\x7bBUILD_DATE\x7d\x7d | ブログ数:" ++
    " \x7b\x7bTOTAL_BLOGS\x7d\x7d | 記事数: \x7b\x7bTOTAL_POSTS\x7d\x7d | 最新:" ++
    " \x7b\x7bLATEST_DATE\x7d\x7d</p>\n" ++
  "    <table class=\"word-table\">\n" ++
  "      <tr><th>ブログ</th><th>説明</th><th>著者</th><th>記事</th></tr>\n" ++
  "\x7b\x7bBLOG_TABLE_ROWS\x7d\x7d\n" ++
  "    </table>\n" ++
  "    <div class=\"word-section-break\"></div>\n" ++
  "    <div class=\"word-section-heading\">🆕 最新記事</div>\n" ++
  "\x7b\x7bLATEST_POSTS\x7d\x7d\n" ++
  "  </div>\n" ++
  "</body>\n" ++
  "</html>\n"

/-- The page for addresses that lead nowhere. -/
def notFoundTemplate : String :=
  "<!DOCTYPE html>\n" ++
  "<html lang=\"ja\">\n" ++
  "<head>\n" ++
  "  <meta charset=\"UTF-8\">\n" ++
  "  <title>404 - ページが見つかりません</title>\n" ++
  "  <link rel=\"stylesheet\" href=\"/assets/css/word-retro.css\">\n" ++
  "</head>\n" ++
  "<body>\n" ++
  "  <div class=\"word-page\">\n" ++
  "    <h1>404</h1>\n" ++
  "    <p>お探しのページは見つかりませんでした。</p>\n" ++
  "    <p><a href=\"/index.html\">トップへ戻る</a></p>\n" ++
  "  </div>\n" ++
  "</body>\n" ++
  "</html>\n"

/-- The page of a blog in the default theme. -/
def blogTemplate : String :=
  "<!DOCTYPE html>\n" ++
  "<html lang=\"ja\">\n" ++
  "<head>\n" ++
  "  <meta charset=\"UTF-8\">\n" ++
  "  <meta name=\"viewport\" content=\"width=device-width, initial-scale=1.0\">\n" ++
  "  <title>\x7b\x7bBLOG_TITLE\x7d\x7d</title>\n" ++
  "  <link rel=\"stylesheet\" href=\"../../assets/css/word-retro.css\">\n" ++
  "</head>\n" ++
  "<body>\n" ++
  "  <div class=\"word-page\">\n" ++
  "    <p><a href=\"../../index.html\">← トップへ</a></p>\n" ++
  "    <h1><span" ++
    " class=\"word-emoji\">\x7b\x7bBLOG_EMOJI\x7d\x7d</span>\x7b\x7bBLOG_TITLE\x7d\x7d</h1>\n" ++
  "    <p>\x7b\x7bBLOG_DESC\x7d\x7d</p>\n" ++
  "    <p class=\"word-blog-meta\">著者: \x7b\x7bBLOG_AUTHOR\x7d\x7d | 惑星:" ++
    " \x7b\x7bPLANET_JA\x7d\x7d (\x7b\x7bPLANET_EN\x7d\x7d) | 記事数: \x7b\x7bPOST_COUNT\x7d\x7d" ++
    " | 最終更新: \x7b\x7bLATEST_DATE\x7d\x7d</p>\n" ++
  "    <div class=\"word-section-break\"></div>\n" ++
  "    \x7b\x7bTAG_FILTER\x7d\x7d\n" ++
  "    <div class=\"word-post-list\" data-blog=\"\x7b\x7bBLOG_SLUG\x7d\x7d\">\n" ++
  "\x7b\x7bPOST_LIST\x7d\x7d\n" ++
  "    </div>\n" ++
  "  </div>\n" ++
  "  <script src=\"../../assets/js/tag-filter.js\"></script>\n" ++
  "</body>\n" ++
  "</html>\n"

/-- The page of a post in the default theme. -/
def postTemplate : String :=
  "<!DOCTYPE html>\n" ++
  "<html lang=\"ja\">\n" ++
  "<head>\n" ++
  "  <meta charset=\"UTF-8\">\n" ++
  "  <meta name=\"viewport\" content=\"width=device-width, initial-scale=1.0\">\n" ++
  "  <title>\x7b\x7bPOST_TITLE\x7d\x7d - \x7b\x7bBLOG_TITLE\x7d\x7d</title>\n" ++
  "  <meta name=\"description\" content=\"\x7b\x7bPOST_EXCERPT\x7d\x7d\">\n" ++
  "  <link rel=\"stylesheet\" href=\"../../../assets/css/word-retro.css\">\n" ++
  "  <script type=\"application/json\" id=\"post-meta\">\x7b\"slug\":" ++
    " \"\x7b\x7bPOST_SLUG\x7d\x7d\", \"blog\": \"\x7b\x7bBLOG_SLUG\x7d\x7d\", \"tags\":" ++
    " [\x7b\x7bPOST_TAGS_RAW\x7d\x7d]\x7d</script>\n" ++
  "</head>\n" ++
  "<body>\n" ++
  "  <div class=\"word-page\">\n" ++
  "    <p><a href=\"../index.html\">\x7b\x7bBLOG_EMOJI\x7d\x7d" ++
    " \x7b\x7bBLOG_TITLE\x7d\x7d</a></p>\n" ++
  "    <article>\n" ++
  "      <h1>\x7b\x7bPOST_TITLE\x7d\x7d</h1>\n" ++
  "      <p class=\"word-blog-meta\">📅 \x7b\x7bPOST_DATE\x7d\x7d | ✍️" ++
    " \x7b\x7bPOST_AUTHOR\x7d\x7d</p>\n" ++
  "      <div>\x7b\x7bPOST_TAGS\x7d\x7d</div>\n" ++
  "      <div class=\"word-section-break\"></div>\n" ++
  "\x7b\x7bPOST_CONTENT\x7d\x7d\n" ++
  "    </article>\n" ++
  "    <nav class=\"word-nav\">\n" ++
  "      \x7b\x7bPREV_POST\x7d\x7d\n" ++
  "      \x7b\x7bNEXT_POST\x7d\x7d\n" ++
  "    </nav>\n" ++
  "  </div>\n" ++
  "</body>\n" ++
  "</html>\n"

end BlogSite.Starter

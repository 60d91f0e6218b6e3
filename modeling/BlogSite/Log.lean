/-!
What a build reports while it works. The console shows what is above the level of details; a log
file keeps everything.
-/

namespace BlogSite

namespace Log

/-- Who reports. -/
inductive Source where
  | command
  | build
  | posts
  | templates
deriving DecidableEq

inductive Level where
  | detail
  | info
  | error
deriving DecidableEq

structure Record where
  source : Source
  level : Level
  message : String
deriving DecidableEq

def Source.name : Source → String
  | .command => "StarBlog"
  | .build => "StarBlog.build"
  | .posts => "StarBlog.posts"
  | .templates => "StarBlog.template"

def Level.name : Level → String
  | .detail => "DEBUG"
  | .info => "INFO"
  | .error => "ERROR"

/-- A record on one line. -/
def Record.line (r : Record) : String :=
  r.source.name ++ " - " ++ r.level.name ++ " - " ++ r.message

/-- Whether the console shows a record. -/
def Record.onConsole (r : Record) : Bool := r.level != .detail

end Log

end BlogSite

import BlogSite.Disk.Basic

/-!
Why a build stops. Every failure is a cause; its wording is in `Failure.message` alone.
-/

namespace BlogSite

/-- What is wrong with the list of blogs. -/
inductive BlogListFault where
  | notJson (path : String)
  | notList (path : String)
  | noSlug (path : String) (position : Nat)
  | stated (text : String)
deriving DecidableEq

/-- What is wrong with the front matter of a post. -/
inductive FrontMatterFault where
  | invalidYaml
  | notMapping (kind : String)
  | badValue
  | missing (fields : List String)
  | stated (text : String)
deriving DecidableEq

/-- What is wrong with a settings file. -/
inductive SettingsFault where
  | unsupportedFormat (format : String)
  | invalidYaml (path : String)
  | invalidJson (path : String)
  | notMapping (path : String)
deriving DecidableEq

inductive Failure where
  | missingDependency (text : String)
  | missingBlogList (path : String)
  | invalidBlogList (fault : BlogListFault)
  | invalidPost (blog item : String) (fault : FrontMatterFault)
  | missingTemplate (path : String)
  | invalidSettings (fault : SettingsFault)
  | frontMatter (fault : FrontMatterFault)
  | disk (fault : DiskFault)
  /-- Bytes that are no text. -/
  | notText
  /-- A text that names no value, such as the 30th of February. -/
  | badValue
  /-- A value of a type that does not fit. -/
  | wrongType
  /-- A mapping without a key that it has to have. -/
  | missingKey
  /-- A value that has no fields where a mapping is asked for. -/
  | noFields
  /-- A text that is too short. -/
  | tooShort
  /-- A number or a day outside the range. -/
  | outOfRange
deriving DecidableEq

def FrontMatterFault.reason : FrontMatterFault → String
  | .invalidYaml => "invalid YAML"
  | .notMapping kind => "expected a mapping, got " ++ kind
  | .badValue => "bad value"
  | .missing fields => "missing: " ++ ", ".intercalate fields
  | .stated text => text

def BlogListFault.message : BlogListFault → String
  | .notJson path => "Invalid JSON in blog configuration " ++ path
  | .notList path => "Blog configuration " ++ path ++ " must be a list of blogs"
  | .noSlug path position =>
    "Blog #" ++ toString position ++ " in " ++ path ++ " has no slug"
  | .stated text => text

def SettingsFault.message : SettingsFault → String
  | .unsupportedFormat format => "Unsupported config file format: " ++ format
  | .invalidYaml path => "Invalid YAML in configuration file " ++ path
  | .invalidJson path => "Invalid JSON in configuration file " ++ path
  | .notMapping path => "Configuration file " ++ path ++ " must contain a mapping"

def DiskFault.message : DiskFault → String
  | .notFound => "no such file or directory"
  | .notDirectory => "not a directory"
  | .isDirectory => "is a directory"
  | .alreadyExists => "file exists"
  | .nameTooLong => "file name too long"
  | .badName => "file name with a NUL character"

/-- The wording for a post: which of its fields are missing, or why its front matter cannot be
read. A value that cannot be made has no further wording. -/
def FrontMatterFault.message (blog item : String) : FrontMatterFault → String
  | .missing fields =>
    "Missing required front matter in " ++ blog ++ "/posts/" ++ item ++
      " (missing: " ++ ", ".intercalate fields ++ ")"
  | .badValue => "Invalid front matter in " ++ blog ++ "/posts/" ++ item
  | fault => "Invalid front matter in " ++ blog ++ "/posts/" ++ item ++ ": " ++ fault.reason

def Failure.message : Failure → String
  | .missingDependency text => text
  | .missingBlogList path => "Blog configuration not found: " ++ path
  | .invalidBlogList fault => fault.message
  | .invalidPost blog item fault => fault.message blog item
  | .missingTemplate path => "Template not found: " ++ path
  | .invalidSettings fault => fault.message
  | .frontMatter fault => fault.reason
  | .disk fault => fault.message
  | .notText => "the file is not UTF-8 text"
  | .badValue => "not a valid value"
  | .wrongType => "a value of the wrong type"
  | .missingKey => "a key is missing"
  | .noFields => "a mapping was expected"
  | .tooShort => "the text is too short"
  | .outOfRange => "out of range"

/-- Whether a failure has a wording of its own, rather than one of the system it met. -/
def Failure.isWorded : Failure → Bool
  | .missingDependency _ | .missingBlogList _ | .invalidBlogList _ | .invalidPost .. |
    .missingTemplate _ | .invalidSettings _ => true
  | .frontMatter fault => fault != .badValue
  | _ => false

/-- Whether a failure is one of a file's content or of the file system, so that work can go on
without the file. -/
def Failure.isFileProblem : Failure → Bool
  | .invalidSettings _ | .frontMatter _ | .disk _ | .notText | .badValue => true
  | _ => false

end BlogSite

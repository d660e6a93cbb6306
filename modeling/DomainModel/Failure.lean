import DomainModel.Notification

namespace DomainModel

inductive FileError where
  | notFound
  | notDirectory
  | isDirectory
  | nameTooLong
  | nulInPath
  | notText
  | missingSettings (path : String)
  | invalidSettings
  | other (text : String)
  deriving DecidableEq, Repr

def FileError.message : FileError → String
  | .notFound => "No such file or directory (os error 2)"
  | .notDirectory => "Not a directory (os error 20)"
  | .isDirectory => "Is a directory (os error 21)"
  | .nameTooLong => "File name too long (os error 36)"
  | .nulInPath => "file name contained an unexpected NUL byte"
  | .notText => "stream did not contain valid UTF-8"
  | .missingSettings path => "Missing configuration file: " ++ path
  | .invalidSettings => "Failed to parse TOML configuration"
  | .other text => text

inductive Failure where
  | file (error : FileError)
  | notification (rejection : Rejection)
  | document (rejection : Rejection) (source : String)
  deriving DecidableEq

def Failure.message : Failure → String
  | .file error => "I/O error: " ++ error.message
  | .notification rejection => "Invalid notification: " ++ rejection.message
  | .document rejection _ => rejection.message

end DomainModel

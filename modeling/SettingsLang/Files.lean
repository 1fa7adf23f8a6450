/-!
Access to files, as far as the program needs it. The program is written against this interface, so
that it runs on real files and on stores that are values.
-/

namespace SettingsLang

/-- Actions on text files. Those that can fail answer with the system's own message. -/
class FileAccess (m : Type → Type) where
  /-- Whether there is anything at a path. -/
  present : (path : String) → m Bool
  /-- The text of a file. -/
  readText : (path : String) → m (Except String String)
  /-- Puts a text into a file, in place of what was there. The directories around a new file are
  made. -/
  writeText : (path text : String) → m (Except String Unit)

end SettingsLang

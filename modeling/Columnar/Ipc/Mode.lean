/-! # The two layouts of the interchange format -/

namespace Columnar.Ipc

/-- The layout that a writer produces. -/
inductive Mode where
  | stream
  | file
  deriving DecidableEq

/-- The word for the layout in errors and in the log. -/
def Mode.text : Mode → String
  | stream => "stream"
  | file => "file"

end Columnar.Ipc

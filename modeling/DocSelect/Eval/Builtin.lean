import DocSelect.Eval.Builtin.Collection
import DocSelect.Eval.Builtin.Conversion
import DocSelect.Eval.Builtin.Encoding
import DocSelect.Eval.Builtin.Numeric

/-!
# The functions that every selector can call
-/
namespace DocSelect

/-- All built-in functions; files are read from the given system. -/
def Registry.builtins (files : FileSystem) : Registry :=
  Registry.ofList
    (Builtin.numeric ++ Builtin.conversions ++ Builtin.collections ++ Builtin.encodings files)

end DocSelect

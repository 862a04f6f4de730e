/-!
# Version

The version of the index that the library describes.
-/
namespace ColumnIndex

/-- The version in use. -/
def version : String := "0.4.0"

end ColumnIndex

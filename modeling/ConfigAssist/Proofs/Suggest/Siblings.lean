import ConfigAssist.Proofs.Suggest.Scope
import ConfigAssist.Suggest.Offer

/-! Two keys of one list item, the first of them behind the dash. The dash is not counted as
indentation, so the line of the first key is indented less than the key itself and less than
the other keys of the item. It comes out as an ancestor of what stands below them. -/

namespace ConfigAssist.Scope

open Text

end ConfigAssist.Scope

import StageChain.Value.Basic

/-!
# Pages of a result

A preview shows one page of the result of some stages and counts the whole of it. `pageStages` and
`countStages` add the stages that do so; page sizes are kept between one and a thousand.
-/

namespace StageChain.Paging

/-- The greatest page size. -/
def maxPageSize : Int := 1000

/-- The page size that is used for a requested one. -/
def clampPageSize (pageSize : Int) : Int := min maxPageSize (max 1 pageSize)

/-- How many documents come before a page. -/
def skipped (pageSize page : Int) : Int := (page - 1) * clampPageSize pageSize

/-- The stages that give one page; pages before the first are the first. -/
def pageStages (stages : List Value) (pageSize page : Int) : List Value :=
  stages ++ [.object [("$skip", .int (skipped pageSize (max 1 page)))],
    .object [("$limit", .int (clampPageSize pageSize))]]

/-- The stages that count the result. -/
def countStages (stages : List Value) : List Value :=
  stages ++ [.object [("$count", .text "total")]]

/-- Whether documents come after a page that holds `shown` of `count` documents. -/
def hasMore (pageSize page : Int) (shown : Nat) (count : Int) : Bool :=
  skipped pageSize page + shown < count

end StageChain.Paging

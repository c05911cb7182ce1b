import Memos.Service.Integrity
import Memos.Service.Ownership
import Memos.Service.Visibility
import Memos.Service.PayloadRuns
import Memos.Service.SettingFailures
import Memos.Service.SettingRuns
import Memos.Store.CrashSafety
import Memos.Service.Credentials
import Memos.Service.AttachmentFiles
import Memos.Service.SsoLinks
import Memos.Service.Outbound
import Memos.Service.ShareLinks
import Memos.Service.RefreshTokens
import Memos.Web.Reimport
import Memos.Schedules.Lifecycle
import Memos.Filter.Folding
import Memos.Filter.OperatorTree
import Memos.Schedules.NextRun
import Memos.Web.ZipRoundTrip
import Memos.Web.TaskToggle
import Memos.Web.TaskActions
import Memos.Service.Rss
import Memos.Service.CommentPages
import Memos.Service.UpdateMask
import Memos.Markdown.Snippet
import Memos.Web.ImportUpdates
import Memos.Service.MotionVideo
import Memos.Service.EmailFormat
import Memos.Web.OAuthState
import Memos.Web.Drafts
import Memos.Web.MediaItems
import Memos.Web.TaskLists
import Memos.Web.Redirects
import Memos.Web.Headings
import Memos.Web.DayFilters
import Memos.Web.MemoUpdates
import Memos.Service.PartialCreates
import Memos.Web.TokenRefresh
import Memos.Store.CacheAccounting

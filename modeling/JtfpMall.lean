import JtfpMall.Lib.Dict
import JtfpMall.Lib.Keyed
import JtfpMall.Lib.Run
import JtfpMall.Lib.Client
import JtfpMall.Lib.Refinement
import JtfpMall.Lib.StableSort
import JtfpMall.Lib.Action
import JtfpMall.Lib.Relational
import JtfpMall.Lib.TimSort
import JtfpMall.Lib.TimSortRelated
import JtfpMall.Lib.TimSortOrder
import JtfpMall.Lib.Growing
import JtfpMall.Lib.References
import JtfpMall.Lib.History
import JtfpMall.Lib.UniqueTable
import JtfpMall.Lib.Registry
import JtfpMall.Lib.Lease
import JtfpMall.Lib.LastWrite
import JtfpMall.Lib.Lockstep
import JtfpMall.Lib.Ledger
import JtfpMall.Lib.Transaction
import JtfpMall.Lib.Rules
import JtfpMall.Lib.Paging
import JtfpMall.Lib.Grouping
import JtfpMall.Lib.Split
import JtfpMall.Lib.Like
import JtfpMall.Lib.Pattern
import JtfpMall.Js.Num
import JtfpMall.Js.NumText
import JtfpMall.Js.Trim
import JtfpMall.Js.Value
import JtfpMall.Js.Coerce
import JtfpMall.Js.Stamps
import JtfpMall.Js.Whole
import JtfpMall.Js.Sort
import JtfpMall.Js.Order
import JtfpMall.Js.Shortest
import JtfpMall.Js.Json
import JtfpMall.Js.NumberText
import JtfpMall.Js.JsonText
import JtfpMall.Js.Rounding
import JtfpMall.Js.Utf8
import JtfpMall.Js.Base64
import JtfpMall.Js.Uri
import JtfpMall.Store.Data
import JtfpMall.Store.FileStore
import JtfpMall.Store.Keys
import JtfpMall.Store.Writes
import JtfpMall.Store.Process
import JtfpMall.Store.Durability
import JtfpMall.Store.Isolation
import JtfpMall.Repositories.Listing
import JtfpMall.Repositories.Users
import JtfpMall.Repositories.Orders
import JtfpMall.Repositories.WelfareCodes
import JtfpMall.Repositories.Products
import JtfpMall.Repositories.Properties
import JtfpMall.Repositories.Categories
import JtfpMall.Repositories.Reviews
import JtfpMall.Repositories.Orderings
import JtfpMall.Repositories.Pages
import JtfpMall.Repositories.Operations
import JtfpMall.Routes.Http
import JtfpMall.Routes.Orders
import JtfpMall.Routes.AdminOrders
import JtfpMall.Routes.Catalogue
import JtfpMall.Routes.Properties
import JtfpMall.Routes.Welfare
import JtfpMall.Routes.Auth
import JtfpMall.Routes.Payments
import JtfpMall.Server.Requests
import JtfpMall.Server.Failures
import JtfpMall.Server.Effects
import JtfpMall.Server.Permitted
import JtfpMall.Server.Serves
import JtfpMall.Server.Runs
import JtfpMall.Server.Identity
import JtfpMall.Server.OrderEffects
import JtfpMall.Server.OrderNumbers
import JtfpMall.Server.Ownership
import JtfpMall.Server.ChangeLog
import JtfpMall.Server.Logins
import JtfpMall.Server.LoginLinks
import JtfpMall.Server.UnionIds
import JtfpMall.Server.Crashes
import JtfpMall.Server.Payments
import JtfpMall.Server.WelfareUses
import JtfpMall.Server.WelfareWindow
import JtfpMall.Server.PartialUpdates
import JtfpMall.Server.Reads
import JtfpMall.Server.Mall
import JtfpMall.Server.Alike
import JtfpMall.Server.SameAnswers
import JtfpMall.Server.Restarts
import JtfpMall.Server.CategoryReferences
import JtfpMall.Server.Listable
import JtfpMall.Server.StoredRows
import JtfpMall.Server.FailedRequests
import JtfpMall.Server.FaultyRuns
import JtfpMall.Server.Orphans
import JtfpMall.Server.SheetImport
import JtfpMall.Server.PageWindows
import JtfpMall.Server.Exports
import JtfpMall.Server.SkuLibrary
import JtfpMall.Server.PagedLists
import JtfpMall.Server.MallFields
import JtfpMall.Server.OrderDates
import JtfpMall.Server.LoginRuns
import JtfpMall.Server.AccountOrders
import JtfpMall.Server.OrderOrigins
import JtfpMall.Server.Reimport
import JtfpMall.Auth.Jwt
import JtfpMall.Auth.Tokens
import JtfpMall.Auth.UserAuth
import JtfpMall.Auth.Cookies
import JtfpMall.Services.WechatMp
import JtfpMall.Miniapp.Checkout
import JtfpMall.Miniapp.RoundTrip
import JtfpMall.Miniapp.Cart
import JtfpMall.Miniapp.CartMap
import JtfpMall.Miniapp.ProductPage
import JtfpMall.Miniapp.PurchaseLimit
import JtfpMall.Miniapp.WelfareQuote
import JtfpMall.Miniapp.OrderList
import JtfpMall.Miniapp.Url
import JtfpMall.Miniapp.RichText
import JtfpMall.Miniapp.ImageTags
import JtfpMall.Miniapp.ImagePages
import JtfpMall.Miniapp.Session
import JtfpMall.Miniapp.ServedSession
import JtfpMall.Miniapp.AddressPage
import JtfpMall.Miniapp.CheckoutPage
import JtfpMall.Miniapp.ServedOrders
import JtfpMall.H5.Home
import JtfpMall.H5.PropertyTabs
import JtfpMall.Admin.PropertyForm
import JtfpMall.Admin.PropertyImages
import JtfpMall.Admin.ModuleTabs
import JtfpMall.Admin.Recalculation
import JtfpMall.FlCode.Database
import JtfpMall.FlCode.Routes
import JtfpMall.FlCode.PhoneBook
import JtfpMall.FlCode.Sessions
import JtfpMall.FlCode.Uploads
import JtfpMall.FlCode.Search
import JtfpMall.FlCode.Settings
import JtfpMall.FlCode.Outsiders
import JtfpMall.Scripts.BuyerNote
import JtfpMall.Scripts.OrderCheck
import JtfpMall.Scripts.MultiSku
